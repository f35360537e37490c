import P2PFilesystem.ByteNumbers
import P2PFilesystem.KeySort
import Mathlib.Data.Fintype.EquivFin

/-!
# Constants and keys

`constants.rs` and `core/key.rs`: the 20-byte identifier that nodes and chunks share,
the XOR distance as a byte array, and its reading as a number below `2 ^ 160`.
-/
namespace P2PFilesystem
open ByteNumbers

/-- Key length in bytes, bucket capacity and lookup width. -/
def K : Nat := 20

/-- Parallelism of a lookup round and number of replicas. -/
def alpha : Nat := 3

def maxFileSizeMb : Nat := 4096

def chunkDataSizeKb : Nat := 1024

def maxShardsStored : Nat := 1024

def maxDataStoredMb : Nat := 4096

/-- Times are in nanoseconds, as the clock gives them. -/
def nanosPerS : Nat := 10 ^ 9

/-- Texts are character lists; every text the program sends is ASCII, one byte each. -/
abbrev Text := List Char

structure KeyValue where
  bytes : List UInt8
  length_bytes : bytes.length = K
  deriving DecidableEq

structure Key where
  value : KeyValue
  deriving DecidableEq

def KeyValue.cmp (a b : KeyValue) : Ordering := cmpBytes a.bytes b.bytes

theorem KeyValue.cmp_eq_compare (a b : KeyValue) : a.cmp b = compare (ofBytes a.bytes) (ofBytes b.bytes) :=
  cmpBytes_eq_compare (a.length_bytes.trans b.length_bytes.symm)

namespace Key

/-- `Key::distance`: the byte-wise XOR. -/
def distance (self other : Key) : KeyValue :=
  ⟨xorBytes self.value.bytes other.value.bytes, by
    rw [length_xorBytes (self.value.length_bytes.trans other.value.length_bytes.symm),
      self.value.length_bytes]⟩

def leadingZerosInDistance (self other : Key) : Nat := countLeadingZeros (self.distance other).bytes

def hexByte (b : UInt8) : Text := [Nat.digitChar (b.toNat / 16), Nat.digitChar (b.toNat % 16)]

/-- `Key::to_hex_string`, also `Display` and `LowerHex`. -/
def toHexString (self : Key) : Text := self.value.bytes.flatMap hexByte

def toNat (self : Key) : Nat := ofBytes self.value.bytes

/-- The distance as a big-endian number. -/
def dist (self other : Key) : Nat := ofBytes (self.distance other).bytes

theorem toNat_lt (a : Key) : a.toNat < 2 ^ (8 * K) := by
  have h := ofBytes_lt a.value.bytes
  rwa [a.value.length_bytes] at h

theorem dist_lt (a b : Key) : a.dist b < 2 ^ (8 * K) := by
  have h := ofBytes_lt (a.distance b).bytes
  rwa [(a.distance b).length_bytes] at h

theorem ext_bytes {a b : Key} (h : a.value.bytes = b.value.bytes) : a = b := by
  rcases a with ⟨⟨x, hx⟩⟩
  rcases b with ⟨⟨y, hy⟩⟩
  cases h
  rfl

theorem toNat_injective {a b : Key} (h : a.toNat = b.toNat) : a = b :=
  ext_bytes (ofBytes_injective (a.value.length_bytes.trans b.value.length_bytes.symm) h)

instance : Finite Key :=
  Finite.of_injective (fun a : Key => (⟨a.toNat, a.toNat_lt⟩ : Fin (2 ^ (8 * K))))
    fun _ _ h => toNat_injective (congrArg Fin.val h)

theorem dist_eq_xor (a b : Key) : a.dist b = a.toNat ^^^ b.toNat :=
  ofBytes_xorBytes (a.value.length_bytes.trans b.value.length_bytes.symm)

theorem distance_comm (a b : Key) : a.distance b = b.distance a := by
  unfold distance
  rw [KeyValue.mk.injEq]
  exact List.zipWith_comm_of_comm UInt8.xor_comm

theorem dist_comm (a b : Key) : a.dist b = b.dist a := by rw [dist, distance_comm, dist]

/-- The bits of a key between two others cancel. -/
theorem dist_xor_dist (a b c : Key) : a.dist b ^^^ b.dist c = a.dist c := by
  rw [dist_eq_xor, dist_eq_xor, dist_eq_xor, Nat.xor_assoc, ← Nat.xor_assoc b.toNat, Nat.xor_self, Nat.zero_xor]

@[simp] theorem dist_self (a : Key) : a.dist a = 0 := by rw [dist_eq_xor, Nat.xor_self]

/-- No two keys are equally far from a third. -/
theorem dist_left_injective {a b t : Key} (h : a.dist t = b.dist t) : a = b := by
  simp only [dist_eq_xor] at h
  exact toNat_injective (Nat.xor_right_injective.eq_iff.mp
    (by simpa only [Nat.xor_comm] using h : t.toNat ^^^ a.toNat = t.toNat ^^^ b.toNat))

theorem dist_eq_zero_iff {a b : Key} : a.dist b = 0 ↔ a = b := by
  constructor
  · intro h
    exact dist_left_injective (h.trans (dist_self b).symm)
  · rintro rfl
    exact dist_self a

theorem cmp_distance (a b t : Key) :
    (a.distance t).cmp (b.distance t) = compare (a.dist t) (b.dist t) :=
  (a.distance t).cmp_eq_compare (b.distance t)

theorem cmp_distance_ne_gt {a b t : Key} : (a.distance t).cmp (b.distance t) ≠ .gt ↔ a.dist t ≤ b.dist t := by
  rw [cmp_distance, ne_eq, Nat.compare_eq_gt, Nat.not_lt]

theorem leadingZerosInDistance_eq (a b : Key) :
    a.leadingZerosInDistance b =
      if a = b then 8 * K else 8 * K - 1 - (a.dist b).log2 := by
  rw [leadingZerosInDistance, countLeadingZeros_eq, (a.distance b).length_bytes]
  exact if_congr dist_eq_zero_iff rfl rfl

/-- The key whose first byte is `b` and whose other bytes are `c`. -/
def ofTopByte (b c : UInt8) : Key := ⟨⟨b :: List.replicate 19 c, rfl⟩⟩

end Key

/-- `sort_by` on the XOR distance of a member's key to the target; Rust's sort is stable. -/
def sortByDistance {α : Type*} (key : α → Key) (target : Key) (l : List α) : List α :=
  l.insertionSort (fun a b => ((key a).distance target).cmp ((key b).distance target) ≠ .gt)

theorem sortByDistance_eq {α : Type*} (key : α → Key) (target : Key) (l : List α) :
    sortByDistance key target l = KeySort.sortOn (fun a => (key a).dist target) l := by
  have h : (fun a b => ((key a).distance target).cmp ((key b).distance target) ≠ .gt) =
      fun a b => (key a).dist target ≤ (key b).dist target := by
    funext a b
    exact propext Key.cmp_distance_ne_gt
  unfold sortByDistance KeySort.sortOn
  congr

end P2PFilesystem
