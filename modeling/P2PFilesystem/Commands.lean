import P2PFilesystem.Config
import P2PFilesystem.FileHandle
import P2PFilesystem.Retrieval
import P2PFilesystem.Words

/-!
# The command loop

`main.rs` after the join: what a typed line makes the node do. A handle that an upload has printed
gets the file back when it is typed into a command, or put into a file that a command names.
-/
namespace P2PFilesystem
open Words

/-- `char::is_whitespace`. -/
def isWhitespace (c : Char) : Bool :=
  let n := c.toNat
  0x09 ≤ n && n ≤ 0x0d || n == 0x20 || n == 0x85 || n == 0xa0 || n == 0x1680 || 0x2000 ≤ n && n ≤ 0x200a ||
    n == 0x2028 || n == 0x2029 || n == 0x202f || n == 0x205f || n == 0x3000

/-- What the loop does with a line. -/
inductive LineOutcome where
  | skipped
  | ping (nodeId : Key)
  | findNode (nodeId : Key)
  | upload (filePath : Text)
  | download (fileMetadata : FileMetadata) (storageDir : Text)
  | dumpRt
  | dumpChunks
  | invalidNodeId (e : KeyError)
  | invalidHandle (e : HandleError)
  | invalidHandleIn (handleFilePath : Text) (e : HandleError)
  | unreadableHandleFile (handleFilePath : Text)
  | wrongCommand (command : Text)

def onNodeId (run : Key → LineOutcome) (hexStr : Text) : LineOutcome :=
  match Key.fromHexStr hexStr with
  | .ok nodeId => run nodeId
  | .error e => .invalidNodeId e

def downloadHandle (fileHandle storageDir : Text) : LineOutcome :=
  match FileMetadata.fromStr fileHandle with
  | .ok fileMetadata => .download fileMetadata storageDir
  | .error e => .invalidHandle e

/-- `readToString` is what a path leads to. -/
def downloadHandleFile (readToString : Text → Option Text) (handleFilePath storageDir : Text) : LineOutcome :=
  match readToString handleFilePath with
  | none => .unreadableHandleFile handleFilePath
  | some handleStr => match FileMetadata.fromStr (trim isWhitespace handleStr) with
      | .ok fileMetadata => .download fileMetadata storageDir
      | .error e => .invalidHandleIn handleFilePath e

def runCommand (readToString : Text → Option Text) (command : Text) (args : List Text) : LineOutcome :=
  match String.ofList (command.map toLowercase), args with
  | "ping", [hexStr] => onNodeId .ping hexStr
  | "find_node", [hexStr] => onNodeId .findNode hexStr
  | "upload", [filePath] => .upload filePath
  | "download", [fileHandle, storageDir] => downloadHandle fileHandle storageDir
  | "download_from_handle_file", [handleFilePath, outputDir] => downloadHandleFile readToString handleFilePath outputDir
  | "dump_rt", [] => .dumpRt
  | "dump_chunks", [] => .dumpChunks
  | _, _ => .wrongCommand command

/-- One turn of the loop. -/
def readLine (readToString : Text → Option Text) (line : Text) : LineOutcome :=
  match words isWhitespace line with
  | [] => .skipped
  | command :: args => runCommand readToString command args

section Handles
variable {md : FileMetadata} {readToString : Text → Option Text} {line command storageDir handleFilePath : Text}

theorem isWhitespace_digitChar {d : Nat} (h : d < 16) : isWhitespace (Nat.digitChar d) = false := by
  revert d
  decide

theorem FileMetadata.toString_no_space (m : FileMetadata) : ∀ c ∈ m.toString, isWhitespace c = false := by
  intro c hc
  obtain ⟨b, -, hc⟩ := List.mem_flatMap.mp hc
  have hb := b.toNat_lt
  simp only [List.mem_cons, List.not_mem_nil, or_false] at hc
  rcases hc with rfl | rfl
  · exact isWhitespace_digitChar (by omega)
  · exact isWhitespace_digitChar (by omega)

theorem FileMetadata.toString_ne_nil (m : FileMetadata) : m.toString ≠ [] := by
  intro hempty
  have hlength := TextCodec.length_utf8_hexEncode m.serialize
  have hnone : TextCodec.hexEncode m.serialize = [] := hempty
  have hname : 0 < (Bincode.u64 (TextCodec.utf8 m.name).length).length := by
    rw [Bincode.u64, Bincode.length_leBytes]
    decide
  rw [hnone] at hlength
  simp only [FileMetadata.serialize, Bincode.str, List.length_append, TextCodec.utf8, List.flatMap_nil,
    List.length_nil] at hlength hname
  omega

theorem readLine_download (hm : md.InMemory) (hline : Spaced isWhitespace [command, md.toString, storageDir] line)
    (hcommand : command.map toLowercase = "download".toList) : readLine readToString line = .download md storageDir := by
  unfold readLine
  rw [hline.words_eq]
  change runCommand readToString command [md.toString, storageDir] = _
  unfold runCommand
  rw [hcommand, String.ofList_toList]
  change downloadHandle md.toString storageDir = _
  unfold downloadHandle
  rw [hm.fromStr_toString]

theorem readLine_downloadFromHandleFile (hm : md.InMemory)
    (hline : Spaced isWhitespace [command, handleFilePath, storageDir] line)
    (hcommand : command.map toLowercase = "download_from_handle_file".toList) {before after : Text}
    (hbefore : ∀ c ∈ before, isWhitespace c = true) (hafter : ∀ c ∈ after, isWhitespace c = true)
    (hfile : readToString handleFilePath = some (before ++ (md.toString ++ after))) :
    readLine readToString line = .download md storageDir := by
  unfold readLine
  rw [hline.words_eq]
  change runCommand readToString command [handleFilePath, storageDir] = _
  unfold runCommand
  rw [hcommand, String.ofList_toList]
  change downloadHandleFile readToString handleFilePath storageDir = _
  unfold downloadHandleFile
  rw [hfile]
  dsimp only
  rw [trim_word hbefore md.toString_no_space hafter, hm.fromStr_toString]

end Handles

/-- The downloads that a line starts, with what they leave in the output file. -/
def LineOutcome.downloads (A : Aead) (build : Build) (peers : Nat → NodeInfo → Peer) (me : NodeInfo) (fetch : Nat → Fetch)
    (findStorer : Nat → Key → Except DownloadError NodeInfo) : LineOutcome → Option (Text × Except DownloadError Bytes)
  | .download fileMetadata storageDir => some (storageDir, downloadFile A build peers me fetch findStorer fileMetadata)
  | _ => none

section Download
variable {A : Aead} {sha1 : Bytes → Key} {me reader : NodeInfo} {content : Bytes} {md : FileMetadata} {w₀ w : World}

/-- After an upload the printed handle is one word, and any line that gives it to `download`, with
whatever white space and letter case of the command, gets the content back from the storers that
the lookups find if they get through to the reader; and so does `download_from_handle_file` with a
file that holds the handle, white space around it or not. -/
theorem Uploaded.download_line (h : Uploaded A sha1 me reader content md w₀ w) (hA : A.Lawful) (hm : md.InMemory)
    (hnodup : (md.chunksMetadata.map ChunkMetadata.hash).Nodup)
    (hno : ∀ entry ∈ md.chunksMetadata, ∀ n text, ¬ w₀.HeldOtherwise w reader entry.hash n text)
    (hreader : ∀ n hash, n.id = reader.id → (w.peers n).storage.owns hash → n = reader) (search : Search w reader)
    (hvalid : ∀ i, ((search.network i).table reader).Valid) {storers : Nat → NodeInfo} (hfinds : search.Finds md storers)
    (build : Build) {fetch : Nat → Fetch} (hconnected : World.Connected reader fetch md storers)
    (readToString : Text → Option Text) :
    words isWhitespace md.toString = [md.toString] ∧
    (∀ line command dir, Spaced isWhitespace [command, md.toString, dir] line → command.map toLowercase = "download".toList →
      (readLine readToString line).downloads A build (fun _ => w.peers) reader fetch (fun i _ => .ok (storers i)) =
        some (dir, .ok content)) ∧
    ∀ line command path dir before after, Spaced isWhitespace [command, path, dir] line →
      command.map toLowercase = "download_from_handle_file".toList → (∀ c ∈ before, isWhitespace c = true) →
      (∀ c ∈ after, isWhitespace c = true) → readToString path = some (before ++ (md.toString ++ after)) →
      (readLine readToString line).downloads A build (fun _ => w.peers) reader fetch (fun i _ => .ok (storers i)) =
        some (dir, .ok content) := by
  have hdownload := h.download_of_finds hA hnodup hno hreader search hvalid hfinds build hconnected
  refine ⟨words_word md.toString_ne_nil md.toString_no_space, fun line command dir hline hcommand => ?_,
    fun line command path dir before after hline hcommand hbefore hafter hfile => ?_⟩
  · rw [readLine_download hm hline hcommand]
    exact congrArg (fun r => some (dir, r)) hdownload
  · rw [readLine_downloadFromHandleFile hm hline hcommand hbefore hafter hfile]
    exact congrArg (fun r => some (dir, r)) hdownload

theorem download_line_neighbour : ∃ (w : World) (storers : Nat → NodeInfo),
    (readLine (fun _ => none)
        ("Download".toList ++ ' ' :: (sampleMetadata.toString ++ ' ' :: ("out".toList ++ ['\n'])))).downloads
      tagAead .debug (fun _ => w.peers) (.local 1 4001) (fun _ => localFetch) (fun i _ => .ok (storers i)) =
      some ("out".toList, .ok [1]) := by
  obtain ⟨w, search, hup, -, hno, hreader, hmesh, hmany⟩ := sample_search
  obtain ⟨storers, hfinds⟩ := hmesh.finds (by decide) hmany
  have hmemory : sampleMetadata.InMemory := ⟨by decide, by decide, by decide, by decide⟩
  have hnothing : ∀ c ∈ ([] : Text), isWhitespace c = true := fun c hc => absurd hc List.not_mem_nil
  have hnewline : ∀ c ∈ ['\n'], isWhitespace c = true := fun c hc => List.mem_singleton.mp hc ▸ rfl
  have hword : ∀ w : Text, (w.all fun c => !isWhitespace c) = true → ∀ c ∈ w, isWhitespace c = false := by
    intro w hw c hc
    simpa using List.all_eq_true.mp hw c hc
  have hout : Spaced isWhitespace ["out".toList] ([] ++ ("out".toList ++ ['\n'])) :=
    .last hnothing (by decide) (hword _ (by decide)) hnewline
  have hhandle : Spaced isWhitespace [sampleMetadata.toString, "out".toList] ([] ++ (sampleMetadata.toString ++ ' ' :: _)) :=
    .word hnothing sampleMetadata.toString_ne_nil sampleMetadata.toString_no_space rfl hout
  have hline : Spaced isWhitespace ["Download".toList, sampleMetadata.toString, "out".toList]
      ([] ++ ("Download".toList ++ ' ' :: _)) := .word hnothing (by decide) (hword _ (by decide)) rfl hhandle
  refine ⟨w, storers, ?_⟩
  have hconnected : World.Connected (.local 1 4001) (fun _ => localFetch) sampleMetadata storers := fun _ _ _ => .inr rfl
  obtain ⟨-, hdownloads, -⟩ := hup.download_line tagAead_lawful hmemory (by decide) hno hreader search
    (fun i => (hmesh.mesh i).valid _ hmesh.reader_mem) hfinds .debug hconnected fun _ => none
  exact hdownloads _ _ _ hline (by decide)

end Download

end P2PFilesystem
