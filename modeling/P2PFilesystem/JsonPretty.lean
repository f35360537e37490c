import P2PFilesystem.JsonParse
import Mathlib.Data.List.DropRight

/-!
# Indented JSON text

What a serializer writes with a line for each element and two spaces for each level, and that it
is read back as the value it was written for.
-/
namespace JsonText

inductive Tree where
  | null
  | bool (b : Bool)
  | num (n : Nat)
  | str (s : List Char)
  | arr (xs : List Tree)
  | obj (fields : List (List Char × Tree))

mutual
def Tree.value : Tree → Value
  | .null => .null
  | .bool b => .bool b
  | .num n => .num n
  | .str s => .str s
  | .arr xs => .arr (treeItems xs)
  | .obj fields => .obj (treeFields fields)

def treeItems : List Tree → List Value
  | [] => []
  | x :: xs => x.value :: treeItems xs

def treeFields : List (List Char × Tree) → List (List Char × Value)
  | [] => []
  | (k, x) :: fields => (k, x.value) :: treeFields fields
end

def newline (depth : Nat) : List Char := '\n' :: List.replicate (2 * depth) ' '

mutual
/-- The value at a level; brackets stand alone where there is nothing between them. -/
def pretty (depth : Nat) : Tree → List Char
  | .null => "null".toList
  | .bool true => "true".toList
  | .bool false => "false".toList
  | .num n => decimal n
  | .str s => quote s
  | .arr [] => "[]".toList
  | .arr (x :: xs) => '[' :: (prettyItems (depth + 1) (x :: xs) ++ newline depth ++ [']'])
  | .obj [] => "\x7b\x7d".toList
  | .obj (f :: fields) => '\x7b' :: (prettyFields (depth + 1) (f :: fields) ++ newline depth ++ ['\x7d'])

def prettyItems (depth : Nat) : List Tree → List Char
  | [] => []
  | [x] => newline depth ++ pretty depth x
  | x :: y :: xs => newline depth ++ pretty depth x ++ ',' :: prettyItems depth (y :: xs)

def prettyFields (depth : Nat) : List (List Char × Tree) → List Char
  | [] => []
  | [(k, x)] => newline depth ++ quote k ++ ':' :: ' ' :: pretty depth x
  | (k, x) :: y :: fields => newline depth ++ quote k ++ ':' :: ' ' :: (pretty depth x ++ ',' :: prettyFields depth (y :: fields))
end

example : pretty 0 (.arr [.num 1, .arr []]) = "[\n  1,\n  []\n]".toList := by decide

section Spaces

theorem skipSpace_idem (s : List Char) : skipSpace (skipSpace s) = skipSpace s := List.dropWhile_idempotent _ s

theorem skipSpace_newline (depth : Nat) (s : List Char) : skipSpace (newline depth ++ s) = skipSpace s := by
  have hspaces : ∀ c ∈ newline depth, isSpace c = true := by
    intro c hc
    rcases List.mem_cons.mp hc with rfl | hc
    · rfl
    · rw [List.eq_of_mem_replicate hc]
      rfl
  exact List.dropWhile_append_of_pos hspaces

theorem skipSpace_space (s : List Char) : skipSpace (' ' :: s) = skipSpace s := List.dropWhile_cons_of_pos rfl

theorem parseValue_congr (fuel : Nat) {s s' : List Char} (h : skipSpace s = skipSpace s') :
    parseValue fuel s = parseValue fuel s' := by
  cases fuel with
  | zero => rfl
  | succ fuel => simp only [parseValue, h]

theorem parseItems_congr (fuel : Nat) {s s' : List Char} (h : skipSpace s = skipSpace s') :
    parseItems fuel s = parseItems fuel s' := by
  cases fuel with
  | zero => rfl
  | succ fuel => simp only [parseItems, parseValue_congr fuel h]

theorem parseFields_congr (fuel : Nat) {s s' : List Char} (h : skipSpace s = skipSpace s') :
    parseFields fuel s = parseFields fuel s' := by
  cases fuel with
  | zero => rfl
  | succ fuel => simp only [parseFields, h]

theorem parseValue_arr_skip (fuel : Nat) (s : List Char) :
    parseValue (fuel + 1) ('[' :: s) = parseValue (fuel + 1) ('[' :: skipSpace s) := by
  rw [parseValue_arr_cases, parseValue_arr_cases, skipSpace_idem]

theorem parseValue_obj_skip (fuel : Nat) (s : List Char) :
    parseValue (fuel + 1) ('\x7b' :: s) = parseValue (fuel + 1) ('\x7b' :: skipSpace s) := by
  rw [parseValue_obj_cases, parseValue_obj_cases, skipSpace_idem]

end Spaces

section Steps
variable {fuel : Nat} {s r rest rest' k : List Char} {v : Value} {vs : List Value} {fields : List (List Char × Value)}

theorem parseItems_close (h : parseValue fuel s = some (v, r)) (hr : skipSpace r = ']' :: rest) :
    parseItems (fuel + 1) s = some ([v], rest) := by
  rw [parseItems_cases, h, Option.bind_some, hr]
  rfl

theorem parseFields_close (h : parseValue fuel s = some (v, r)) (hr : skipSpace r = '\x7d' :: rest) :
    parseFields (fuel + 1) (quote k ++ ':' :: s) = some (some [(k, v)], rest) := by
  rw [parseFields_key, h, Option.bind_some, hr]
  rfl

end Steps

/-- What may come after a value in indented text. -/
def EndsLine (rest : List Char) : Prop := ∀ c ∈ rest.head?, c = ',' ∨ c = '\n'

theorem EndsLine.endsNumber {rest : List Char} (h : EndsLine rest) : EndsNumber rest := by
  cases rest with
  | nil => exact ⟨rfl, rfl, rfl⟩
  | cons c s =>
      rcases h c rfl with rfl | rfl
      · exact ⟨rfl, rfl, rfl⟩
      · exact ⟨rfl, rfl, rfl⟩

theorem endsLine_newline (depth : Nat) (s : List Char) : EndsLine (newline depth ++ s) := by
  intro c hc
  cases Option.some.inj hc
  exact .inr rfl

theorem endsLine_comma (s : List Char) : EndsLine (',' :: s) := by
  intro c hc
  cases Option.some.inj hc
  exact .inl rfl

theorem opens_pretty (depth : Nat) (x : Tree) : Opens (pretty depth x) := by
  match x with
  | .null => exact ⟨'n', _, rfl, rfl, by decide, by decide⟩
  | .bool true => exact ⟨'t', _, rfl, rfl, by decide, by decide⟩
  | .bool false => exact ⟨'f', _, rfl, rfl, by decide, by decide⟩
  | .num n => exact opens_decimal n
  | .str s => exact opens_quote s
  | .arr [] => exact ⟨'[', _, rfl, rfl, by decide, by decide⟩
  | .arr (x :: xs) => exact ⟨'[', _, rfl, rfl, by decide, by decide⟩
  | .obj [] => exact ⟨'\x7b', _, rfl, rfl, by decide, by decide⟩
  | .obj (f :: fields) => exact ⟨'\x7b', _, rfl, rfl, by decide, by decide⟩

theorem opens_skip_prettyItems (depth : Nat) (x : Tree) (xs : List Tree) (s : List Char) :
    Opens (skipSpace (prettyItems depth (x :: xs) ++ s)) := by
  cases xs with
  | nil =>
      rw [prettyItems, List.append_assoc, skipSpace_newline, ((opens_pretty depth x).append s).skipSpace]
      exact (opens_pretty depth x).append s
  | cons y xs =>
      rw [prettyItems, List.append_assoc, List.append_assoc, skipSpace_newline, ((opens_pretty depth x).append _).skipSpace]
      exact (opens_pretty depth x).append _

theorem opens_skip_prettyFields (depth : Nat) (f : List Char × Tree) (fields : List (List Char × Tree)) (s : List Char) :
    Opens (skipSpace (prettyFields depth (f :: fields) ++ s)) := by
  obtain ⟨k, x⟩ := f
  cases fields with
  | nil =>
      rw [prettyFields, List.append_assoc, List.append_assoc, skipSpace_newline, ((opens_quote k).append _).skipSpace]
      exact (opens_quote k).append _
  | cons y fields =>
      rw [prettyFields, List.append_assoc, List.append_assoc, skipSpace_newline, ((opens_quote k).append _).skipSpace]
      exact (opens_quote k).append _

/-- With this fuel, one unit for each character, indented text is read back, and the text
after it is left. -/
structure ReadsPretty (fuel : Nat) : Prop where
  value : ∀ depth x rest, (pretty depth x).length < fuel → EndsLine rest →
    parseValue fuel (pretty depth x ++ rest) = some (x.value, rest)
  items : ∀ depth x xs outer rest, (prettyItems depth (x :: xs)).length + 1 < fuel →
    parseItems fuel (prettyItems depth (x :: xs) ++ (newline outer ++ ']' :: rest)) = some (treeItems (x :: xs), rest)
  fields : ∀ depth f fields outer rest, (prettyFields depth (f :: fields)).length + 1 < fuel →
    parseFields fuel (prettyFields depth (f :: fields) ++ (newline outer ++ '\x7d' :: rest)) =
      some (some (treeFields (f :: fields)), rest)

namespace ReadsPretty
variable {fuel : Nat}

theorem value_succ (h : ReadsPretty fuel) (depth : Nat) (x : Tree) (rest : List Char)
    (hfuel : (pretty depth x).length < fuel + 1) (hrest : EndsLine rest) :
    parseValue (fuel + 1) (pretty depth x ++ rest) = some (x.value, rest) := by
  match x with
  | .null => rfl
  | .bool true => rfl
  | .bool false => rfl
  | .num n => exact parseValue_decimal fuel n hrest.endsNumber
  | .str s => exact parseValue_quote fuel s rest
  | .arr [] => rfl
  | .arr (x :: xs) =>
      simp only [pretty, List.length_cons, List.length_append, List.length_nil] at hfuel
      simp only [pretty, List.cons_append, List.append_assoc, List.nil_append]
      rw [parseValue_arr_skip, parseValue_arr fuel (opens_skip_prettyItems _ _ _ _), parseItems_congr fuel (skipSpace_idem _),
        h.items (depth + 1) x xs depth rest (by omega)]
      rfl
  | .obj [] => rfl
  | .obj (f :: fields) =>
      simp only [pretty, List.length_cons, List.length_append, List.length_nil] at hfuel
      simp only [pretty, List.cons_append, List.append_assoc, List.nil_append]
      rw [parseValue_obj_skip, parseValue_obj fuel (opens_skip_prettyFields _ _ _ _), parseFields_congr fuel (skipSpace_idem _),
        h.fields (depth + 1) f fields depth rest (by omega)]
      rfl

theorem items_succ (h : ReadsPretty fuel) (depth : Nat) (x : Tree) (xs : List Tree) (outer : Nat) (rest : List Char)
    (hfuel : (prettyItems depth (x :: xs)).length + 1 < fuel + 1) :
    parseItems (fuel + 1) (prettyItems depth (x :: xs) ++ (newline outer ++ ']' :: rest)) =
      some (treeItems (x :: xs), rest) := by
  cases xs with
  | nil =>
      simp only [prettyItems, List.length_append] at hfuel ⊢
      rw [List.append_assoc, parseItems_congr _ (skipSpace_newline depth _)]
      exact parseItems_close (h.value depth x _ (by omega) (endsLine_newline outer _)) (skipSpace_newline outer _)
  | cons y xs =>
      simp only [prettyItems, List.length_append, List.length_cons] at hfuel
      simp only [prettyItems, List.append_assoc, List.cons_append]
      rw [parseItems_congr _ (skipSpace_newline depth _)]
      exact parseItems_more (h.value depth x _ (by omega) (endsLine_comma _)) (h.items depth y xs outer rest (by omega))

theorem fields_succ (h : ReadsPretty fuel) (depth : Nat) (f : List Char × Tree) (fields : List (List Char × Tree))
    (outer : Nat) (rest : List Char) (hfuel : (prettyFields depth (f :: fields)).length + 1 < fuel + 1) :
    parseFields (fuel + 1) (prettyFields depth (f :: fields) ++ (newline outer ++ '\x7d' :: rest)) =
      some (some (treeFields (f :: fields)), rest) := by
  obtain ⟨k, x⟩ := f
  have hspace : ∀ r : List Char, skipSpace (' ' :: (pretty depth x ++ r)) = skipSpace (pretty depth x ++ r) := fun r =>
    skipSpace_space _
  cases fields with
  | nil =>
      simp only [prettyFields, List.length_append, List.length_cons] at hfuel
      simp only [prettyFields, List.append_assoc, List.cons_append]
      rw [parseFields_congr _ (skipSpace_newline depth _)]
      refine parseFields_close ?_ (skipSpace_newline outer ('\x7d' :: rest))
      rw [parseValue_congr fuel (hspace _)]
      exact h.value depth x _ (by omega) (endsLine_newline outer _)
  | cons g fields =>
      simp only [prettyFields, List.length_append, List.length_cons] at hfuel
      simp only [prettyFields, List.append_assoc, List.cons_append]
      rw [parseFields_congr _ (skipSpace_newline depth _)]
      refine parseFields_more ?_ (h.fields depth g fields outer rest (by omega))
      rw [parseValue_congr fuel (hspace _)]
      exact h.value depth x _ (by omega) (endsLine_comma _)

end ReadsPretty

theorem readsPretty (fuel : Nat) : ReadsPretty fuel := by
  induction fuel with
  | zero => exact ⟨nofun, nofun, nofun⟩
  | succ fuel ih => exact ⟨ih.value_succ, ih.items_succ, ih.fields_succ⟩

/-- Indented text is read back as the value it was written for. -/
theorem parse_pretty (x : Tree) : parse (pretty 0 x) = some x.value := by
  have h := (readsPretty _).value 0 x [] (Nat.lt_succ_self _) nofun
  rw [List.append_nil] at h
  unfold parse
  rw [h]
  rfl

end JsonText
