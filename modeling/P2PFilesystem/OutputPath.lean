import P2PFilesystem.HandleDownload
import P2PFilesystem.LexicalPath

/-!
# Where a downloaded file is put

`FileDownloader::new` joins the output directory with the name in the handle, as it is there.
The uploader takes that name from the end of a path.
-/
namespace P2PFilesystem
open LexicalPath TextCodec

namespace Path

def separator : UInt8 := 0x2f

def dot : UInt8 := 0x2e

end Path

/-- `file_path` in `FileDownloader::new`. -/
def FileDownloader.outputFilePath (fileMetadata : FileMetadata) (outputDir : Bytes) : Bytes :=
  join Path.separator outputDir (utf8 fileMetadata.name)

/-- The file is below the output directory, with `..` and the current directory worked out. -/
def FileDownloader.StaysInside (cwd : List Bytes) (outputDir : Bytes) (fileMetadata : FileMetadata) : Prop :=
  Inside (resolve Path.separator Path.dot cwd outputDir)
    (resolve Path.separator Path.dot cwd (outputFilePath fileMetadata outputDir))

namespace FileMetadata

def nameRoute (fileMetadata : FileMetadata) : Route UInt8 :=
  .ofComponents (components Path.separator Path.dot (utf8 fileMetadata.name))

/-- The way from the directory: an absolute name leaves every level of it. -/
def route (fileMetadata : FileMetadata) (dir : List Bytes) : Route UInt8 :=
  if IsAbsolute Path.separator (utf8 fileMetadata.name) then ⟨dir.length, fileMetadata.nameRoute.down⟩
  else fileMetadata.nameRoute

/-- What the name leaves of the directory it enters again, and then goes on. -/
def ComesBack (fileMetadata : FileMetadata) (dir : List Bytes) : Prop :=
  Inside ((fileMetadata.route dir).left dir) (fileMetadata.route dir).down

end FileMetadata

instance (cwd : List Bytes) (outputDir : Bytes) (fileMetadata : FileMetadata) :
    Decidable (FileDownloader.StaysInside cwd outputDir fileMetadata) := inferInstanceAs (Decidable (Inside _ _))

instance (fileMetadata : FileMetadata) (dir : List Bytes) : Decidable (fileMetadata.ComesBack dir) :=
  inferInstanceAs (Decidable (Inside _ _))

namespace FileDownloader
variable {cwd : List Bytes} {outputDir : Bytes} {m : FileMetadata}

theorem resolve_outputFilePath (cwd : List Bytes) (outputDir : Bytes) (m : FileMetadata) :
    resolve Path.separator Path.dot cwd (outputFilePath m outputDir) =
      (m.route (resolve Path.separator Path.dot cwd outputDir)).target
        (resolve Path.separator Path.dot cwd outputDir) := by
  unfold outputFilePath FileMetadata.route
  by_cases h : IsAbsolute Path.separator (utf8 m.name)
  · rw [resolve_join_absolute h, walk_eq_target, if_pos h]
    unfold Route.target
    rw [List.take_nil, Nat.sub_self, List.take_zero]
    rfl
  · rw [resolve_join h, walk_eq_target, if_neg h]
    rfl

theorem staysInside_iff_comesBack :
    StaysInside cwd outputDir m ↔ m.ComesBack (resolve Path.separator Path.dot cwd outputDir) := by
  unfold StaysInside
  rw [resolve_outputFilePath]
  exact inside_target_iff

/-- For every handle that is accepted, the file is created below the output directory exactly if its name comes
back to where it left the directory and goes on from there. -/
theorem outputFile_staysInside_iff (s : Text) (cwd : List Bytes) (outputDir : Bytes) :
    ∀ m, FileMetadata.fromStr s = .ok m →
      (StaysInside cwd outputDir m ↔ m.ComesBack (resolve Path.separator Path.dot cwd outputDir)) := by
  intro m _
  exact staysInside_iff_comesBack

theorem exampleMetadata_staysInside :
    StaysInside [] (utf8 "/d".toList) exampleMetadata := by
  refine (outputFile_staysInside_iff exampleMetadata.toString [] _ _ exampleMetadata_inMemory.fromStr_toString).mpr ?_
  decide +kernel

/-- Without chunks, and with a name that leaves the directory. -/
def climbingMetadata : FileMetadata := ⟨"../f".toList, [], []⟩

theorem climbingMetadata_escapes : FileMetadata.fromStr climbingMetadata.toString = .ok climbingMetadata ∧
    ¬ StaysInside [] (utf8 "/d".toList) climbingMetadata := by
  have hmemory : climbingMetadata.InMemory := ⟨by decide, by decide, by decide, by decide⟩
  exact ⟨hmemory.fromStr_toString, by decide +kernel⟩

/-- Under the name at the end of a path a file stays inside every directory. -/
theorem staysInside_of_fileName {path : Bytes} (h : fileName Path.separator Path.dot path = some (utf8 m.name)) :
    StaysInside cwd outputDir m := by
  obtain ⟨hcomponents, hrelative⟩ := components_of_mem (mem_of_fileName h)
  refine staysInside_iff_comesBack.mpr ?_
  unfold FileMetadata.ComesBack
  have hroute : m.route (resolve Path.separator Path.dot cwd outputDir) = ⟨0, [utf8 m.name]⟩ := by
    unfold FileMetadata.route FileMetadata.nameRoute
    rw [hcomponents]
    exact if_neg hrelative
  rw [hroute, Route.left_of_up_eq_zero rfl]
  exact inside_nil_iff.mpr (List.cons_ne_nil _ _)

/-- A handle is safe with every directory exactly if its name is relative, never climbs and names something. -/
theorem staysInside_forall_iff (m : FileMetadata) : (∀ cwd outputDir, StaysInside cwd outputDir m) ↔
    ¬ IsAbsolute Path.separator (utf8 m.name) ∧ m.nameRoute.up = 0 ∧ m.nameRoute.down ≠ [] := by
  constructor
  · intro h
    -- every directory is the current one of the empty path
    have hcomes : ∀ dir, m.ComesBack dir := fun dir => staysInside_iff_comesBack.mp (h dir [])
    have hdown : ∀ dir, (m.route dir).down = m.nameRoute.down := by
      intro dir
      unfold FileMetadata.route
      split_ifs <;> rfl
    -- a name that the route does not begin with
    obtain ⟨other, hother⟩ : ∃ other, other ≠ m.nameRoute.down.headD [] :=
      ⟨0 :: m.nameRoute.down.headD [], List.cons_ne_self 0 _⟩
    have hup : (m.route [other]).up = 0 := by
      by_contra hclimbs
      have hleft : (m.route [other]).left [other] = [other] := by
        unfold Route.left
        rw [List.length_singleton, Nat.sub_eq_zero_of_le (Nat.one_le_iff_ne_zero.mpr hclimbs), List.drop_zero]
      obtain ⟨⟨rest, hrest⟩, -⟩ := hcomes [other]
      rw [hleft, hdown] at hrest
      apply hother
      rw [← hrest]
      rfl
    have hrelative : ¬ IsAbsolute Path.separator (utf8 m.name) := by
      intro habsolute
      have hone : (m.route [other]).up = 1 := by
        unfold FileMetadata.route
        rw [if_pos habsolute]
        rfl
      rw [hup] at hone
      cases hone
    refine ⟨hrelative, ?_, ?_⟩
    · have hroute : m.route [other] = m.nameRoute := if_neg hrelative
      rw [← hroute]
      exact hup
    · have hroot := hcomes []
      unfold FileMetadata.ComesBack Route.left at hroot
      rw [List.drop_nil, hdown] at hroot
      exact inside_nil_iff.mp hroot
  · rintro ⟨hrelative, hup, hdown⟩ cwd outputDir
    apply staysInside_iff_comesBack.mpr
    unfold FileMetadata.ComesBack FileMetadata.route
    rw [if_neg hrelative, Route.left_of_up_eq_zero hup]
    exact inside_nil_iff.mpr hdown

end FileDownloader
end P2PFilesystem
