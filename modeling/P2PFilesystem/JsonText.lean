import Mathlib.Algebra.BigOperators.Group.List.Basic
import Mathlib.Data.Nat.Digits.Defs

/-!
# Compact JSON text

The values a derived serializer writes (strings, unsigned numbers, arrays, objects)
and their compact rendering, with the length of the rendering by cases.
-/
namespace JsonText

inductive Json where
  | str (s : List Char)
  | num (n : Nat)
  | arr (xs : List Json)
  | obj (fields : List (List Char × Json))

/-- Escapes of a string body; every character not listed stands for itself. -/
def escapeChar (c : Char) : List Char :=
  if c.toNat = 34 then ['\\', c]
  else if c = '\\' then ['\\', c]
  else match c.toNat with
    | 8 => ['\\', 'b']
    | 9 => ['\\', 't']
    | 10 => ['\\', 'n']
    | 12 => ['\\', 'f']
    | 13 => ['\\', 'r']
    | n => if n < 32 then ['\\', 'u', '0', '0', Nat.digitChar (n / 16), Nat.digitChar (n % 16)] else [c]

/-- The double quote. -/
def quoteMark : Char := Char.ofNat 34

def quote (s : List Char) : List Char := quoteMark :: (s.flatMap escapeChar ++ [quoteMark])

def decimal (n : Nat) : List Char := Nat.toDigits 10 n

mutual
def render : Json → List Char
  | .str s => quote s
  | .num n => decimal n
  | .arr xs => '[' :: (renderItems xs ++ [']'])
  | .obj fields => '\x7b' :: (renderFields fields ++ ['\x7d'])

def renderItems : List Json → List Char
  | [] => []
  | [x] => render x
  | x :: y :: xs => render x ++ ',' :: renderItems (y :: xs)

def renderFields : List (List Char × Json) → List Char
  | [] => []
  | [(k, x)] => quote k ++ ':' :: render x
  | (k, x) :: y :: fields => quote k ++ ':' :: (render x ++ ',' :: renderFields (y :: fields))
end

/-- Text that is written without any escape. -/
def Plain (s : List Char) : Prop := ∀ c ∈ s, escapeChar c = [c]

instance (s : List Char) : Decidable (Plain s) := List.decidableBAll (fun c => escapeChar c = [c]) s

theorem Plain.append {s t : List Char} (hs : Plain s) (ht : Plain t) : Plain (s ++ t) := by
  intro c hc
  rcases List.mem_append.mp hc with h | h
  · exact hs c h
  · exact ht c h

theorem Plain.cons {c : Char} {s : List Char} (hc : escapeChar c = [c]) (hs : Plain s) :
    Plain (c :: s) := by
  intro d hd
  rcases List.mem_cons.mp hd with rfl | h
  · exact hc
  · exact hs d h

theorem Plain.quote {s : List Char} (h : Plain s) :
    JsonText.quote s = quoteMark :: (s ++ [quoteMark]) := by
  have hs : s.flatMap escapeChar = s := by
    induction s with
    | nil => rfl
    | cons c s ih =>
        rw [List.flatMap_cons, h c List.mem_cons_self, ih fun d hd => h d (List.mem_cons_of_mem c hd)]
        rfl
  rw [JsonText.quote, hs]

theorem Plain.length_quote {s : List Char} (h : Plain s) : (JsonText.quote s).length = s.length + 2 := by
  rw [h.quote, List.length_cons, List.length_append, List.length_singleton]

theorem escapeChar_digitChar {d : Nat} (h : d < 16) :
    escapeChar (Nat.digitChar d) = [Nat.digitChar d] := by
  revert d
  decide

/-- A digit string of base at most sixteen needs no escapes. -/
theorem plain_toDigits {b : Nat} (hb : 1 < b) (h16 : b ≤ 16) (n : Nat) : Plain (Nat.toDigits b n) := by
  induction n using Nat.strongRecOn with
  | ind n ih =>
      rcases Nat.lt_or_ge n b with h | h
      · rw [Nat.toDigits_of_lt_base h]
        exact .cons (escapeChar_digitChar (by omega)) (fun c hc => by cases hc)
      · rw [Nat.toDigits_of_base_le hb h]
        refine (ih (n / b) (Nat.div_lt_self (by omega) hb)).append
          (.cons (escapeChar_digitChar ?_) (fun c hc => by cases hc))
        exact (Nat.mod_lt n (by omega)).trans_le h16

theorem length_renderItems (xs : List Json) :
    (renderItems xs).length = (xs.map fun x => (render x).length).sum + (xs.length - 1) := by
  induction xs with
  | nil => rfl
  | cons x xs ih => cases xs with
    | nil => simp only [renderItems, List.map, List.sum_cons, List.sum_nil, List.length_singleton]; rfl
    | cons y xs =>
        simp only [renderItems, List.length_append, List.length_cons, ih, List.map_cons, List.sum_cons]
        omega

end JsonText
