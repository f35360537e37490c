import P2PFilesystem.TextCodec
import Mathlib.Algebra.Group.Nat.Defs

/-!
# Bincode, fixed-width integers

What `bincode` 1.3 writes by default: lengths as eight bytes, the least first, then the
elements; strings as their UTF-8 bytes; the fields of a struct one after the other. A reader
takes bytes from the front and may fail with an error of the type that is read.
-/
namespace Bincode
open TextCodec

inductive ReadError (ε : Type*) where
  | unexpectedEof
  | invalidUtf8
  | custom (e : ε)

abbrev Reader (ε α : Type) := StateT (List UInt8) (Except (ReadError ε)) α

variable {ε α β : Type}

/-- The reader gets the value from these bytes, whatever follows, and stops after them. -/
def Reads (r : Reader ε α) (bytes : List UInt8) (a : α) : Prop := ∀ rest, r (bytes ++ rest) = .ok (a, rest)

theorem reads_pure (a : α) : Reads (pure a : Reader ε α) [] a := fun _ => rfl

theorem Reads.bind {r : Reader ε α} {f : α → Reader ε β} {first second : List UInt8} {a : α} {b : β}
    (hr : Reads r first a) (hf : Reads (f a) second b) : Reads (r >>= f) (first ++ second) b := by
  intro rest
  calc (r >>= f) (first ++ second ++ rest)
      = (r (first ++ (second ++ rest)) >>= fun p => f p.1 p.2) := by rw [List.append_assoc]; rfl
    _ = f a (second ++ rest) := by rw [hr]; rfl
    _ = .ok (b, rest) := hf rest

/-- The last step of a reader, which only builds the value. -/
theorem Reads.map {r : Reader ε α} {f : α → β} {bytes : List UInt8} {a : α} (hr : Reads r bytes a) :
    Reads (r >>= fun x => pure (f x)) bytes (f a) := by
  have h := hr.bind (f := fun x => pure (f x)) (reads_pure (f a))
  rwa [List.append_nil] at h

def takeBytes (n : Nat) : Reader ε (List UInt8) := fun bytes =>
  if bytes.length < n then .error .unexpectedEof else .ok (bytes.take n, bytes.drop n)

theorem reads_takeBytes (bytes : List UInt8) : Reads (takeBytes bytes.length : Reader ε _) bytes bytes := by
  intro rest
  simp [takeBytes]

section Integers

/-- The `n` low bytes, the least first. -/
def leBytes : Nat → Nat → List UInt8
  | 0, _ => []
  | n+1, x => UInt8.ofNat x :: leBytes n (x / 256)

def ofLeBytes : List UInt8 → Nat
  | [] => 0
  | b :: bytes => b.toNat + 256 * ofLeBytes bytes

theorem length_leBytes (n x : Nat) : (leBytes n x).length = n := by
  induction n generalizing x with
  | zero => rfl
  | succ n ih => simp [leBytes, ih]

theorem ofLeBytes_leBytes {n x : Nat} (h : x < 256 ^ n) : ofLeBytes (leBytes n x) = x := by
  induction n generalizing x with
  | zero => simp [leBytes, ofLeBytes] at h ⊢; omega
  | succ n ih =>
      have hx : x / 256 < 256 ^ n := Nat.div_lt_of_lt_mul (by rwa [Nat.pow_succ, Nat.mul_comm] at h)
      simp only [leBytes, ofLeBytes, ih hx, UInt8.toNat_ofNat']
      omega

def u64 (n : Nat) : List UInt8 := leBytes 8 n

def readU64 : Reader ε Nat := do
  let bytes ← takeBytes 8
  return ofLeBytes bytes

theorem reads_u64 {n : Nat} (h : n < 2 ^ 64) : Reads (readU64 : Reader ε Nat) (u64 n) n := by
  have hbytes : Reads (takeBytes 8 : Reader ε _) (u64 n) (u64 n) := by
    have htake : Reads (takeBytes (u64 n).length : Reader ε _) (u64 n) (u64 n) := reads_takeBytes (u64 n)
    rwa [u64, length_leBytes] at htake
  have hn : ofLeBytes (u64 n) = n := ofLeBytes_leBytes (by simpa using h)
  have hread : Reads (readU64 : Reader ε Nat) (u64 n) (ofLeBytes (u64 n)) := hbytes.map
  rwa [hn] at hread

end Integers

section Sequences

def readU8 : Reader ε UInt8 := fun bytes =>
  match bytes with
  | [] => .error .unexpectedEof
  | b :: rest => .ok (b, rest)

theorem reads_u8 (b : UInt8) : Reads (readU8 : Reader ε UInt8) [b] b := fun _ => rfl

def readMany (r : Reader ε α) : Nat → Reader ε (List α)
  | 0 => return []
  | n+1 => do
      let a ← r
      let as ← readMany r n
      return a :: as

theorem reads_many {r : Reader ε α} {write : α → List UInt8} {l : List α} (h : ∀ a ∈ l, Reads r (write a) a) :
    Reads (readMany r l.length) (l.flatMap write) l := by
  induction l with
  | nil => exact reads_pure []
  | cons a l ih =>
      have hl := ih fun b hb => h b (List.mem_cons_of_mem a hb)
      exact (h a List.mem_cons_self).bind (hl.map (f := fun as => a :: as))

/-- A sequence, with its length in front. -/
def seq (write : α → List UInt8) (l : List α) : List UInt8 := u64 l.length ++ l.flatMap write

def readSeq (r : Reader ε α) : Reader ε (List α) := do
  let n ← readU64
  readMany r n

theorem reads_seq {r : Reader ε α} {write : α → List UInt8} {l : List α} (hlength : l.length < 2 ^ 64)
    (h : ∀ a ∈ l, Reads r (write a) a) : Reads (readSeq r) (seq write l) l :=
  (reads_u64 hlength).bind (reads_many h)

/-- `Vec<u8>` is a sequence like any other. -/
def byteSeq (bytes : List UInt8) : List UInt8 := seq (fun b => [b]) bytes

def readByteSeq : Reader ε (List UInt8) := readSeq readU8

theorem reads_byteSeq {bytes : List UInt8} (h : bytes.length < 2 ^ 64) :
    Reads (readByteSeq : Reader ε _) (byteSeq bytes) bytes := reads_seq h fun b _ => reads_u8 b

end Sequences

section Strings

def str (s : List Char) : List UInt8 := u64 (utf8 s).length ++ utf8 s

def readStr : Reader ε (List Char) := do
  let n ← readU64
  let bytes ← takeBytes n
  match fromUtf8 bytes with
  | some s => return s
  | none => throw .invalidUtf8

theorem reads_str {s : List Char} (h : (utf8 s).length < 2 ^ 64) : Reads (readStr : Reader ε _) (str s) s := by
  have hbytes : Reads (takeBytes (utf8 s).length : Reader ε _) (utf8 s) (utf8 s) := reads_takeBytes _
  have hdecoded : Reads (match fromUtf8 (utf8 s) with
      | some s => pure s
      | none => throw .invalidUtf8 : Reader ε _) [] s := by
    rw [fromUtf8_utf8]
    exact reads_pure s
  have hs := hbytes.bind (f := fun bytes => match fromUtf8 bytes with
    | some s => pure s
    | none => throw .invalidUtf8) hdecoded
  rw [List.append_nil] at hs
  exact (reads_u64 h).bind hs

end Strings

/-- `bincode::deserialize`: bytes after the value are ignored. -/
def deserialize (r : Reader ε α) (bytes : List UInt8) : Except (ReadError ε) α := (r bytes).map Prod.fst

theorem Reads.deserialize {r : Reader ε α} {bytes : List UInt8} {a : α} (h : Reads r bytes a) :
    deserialize r bytes = .ok a := by
  have hr := h []
  rw [List.append_nil] at hr
  rw [Bincode.deserialize, hr]
  rfl

end Bincode
