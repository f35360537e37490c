import P2PFilesystem.JsonText

/-!
# Reading JSON text

A parser for JSON values with the escapes of strings and the forms of numbers. Compact text
that a serializer has written is read back as the value it was written for.

A string may have an escape for half of a surrogate pair, which stands for no character. Such a
string is no text for who reads it, but may be skipped: it does not make the whole text invalid.
-/
namespace JsonText

/-- What a text may stand for. Numbers that are negative or have a fraction or an exponent are
not told apart, nor are strings that are no text, nor objects in which the name of a field is none. -/
inductive Value where
  | null
  | bool (b : Bool)
  | num (n : Nat)
  | otherNum
  | str (s : List Char)
  | otherStr
  | arr (xs : List Value)
  | obj (fields : List (List Char × Value))
  | otherObj

def Value.ofText : Option (List Char) → Value
  | some s => .str s
  | none => .otherStr

def Value.ofFields : Option (List (List Char × Value)) → Value
  | some fields => .obj fields
  | none => .otherObj

mutual
def Json.value : Json → Value
  | .str s => .str s
  | .num n => .num n
  | .arr xs => .arr (valueItems xs)
  | .obj fields => .obj (valueFields fields)

def valueItems : List Json → List Value
  | [] => []
  | x :: xs => x.value :: valueItems xs

def valueFields : List (List Char × Json) → List (List Char × Value)
  | [] => []
  | (k, x) :: fields => (k, x.value) :: valueFields fields
end

section Strings

/-- The letter after a backslash. -/
def unescape (c : Char) : Option Char :=
  if c = quoteMark ∨ c = '\\' ∨ c = '/' then some c
  else if c = 'b' then some (Char.ofNat 8)
  else if c = 't' then some (Char.ofNat 9)
  else if c = 'n' then some (Char.ofNat 10)
  else if c = 'f' then some (Char.ofNat 12)
  else if c = 'r' then some (Char.ofNat 13)
  else none

def hexDigit (c : Char) : Option Nat :=
  if '0' ≤ c ∧ c ≤ '9' then some (c.toNat - 48)
  else if 'a' ≤ c ∧ c ≤ 'f' then some (c.toNat - 97 + 10)
  else if 'A' ≤ c ∧ c ≤ 'F' then some (c.toNat - 65 + 10)
  else none

def codeUnit (a b c d : Char) : Option Nat := do
  return 16 * (16 * (16 * (← hexDigit a) + (← hexDigit b)) + (← hexDigit c)) + (← hexDigit d)

def isHighSurrogate (n : Nat) : Bool := 0xD800 ≤ n && n < 0xDC00

def isLowSurrogate (n : Nat) : Bool := 0xDC00 ≤ n && n < 0xE000

def consChar (c : Char) (p : Option (List Char) × List Char) : Option (List Char) × List Char :=
  (p.1.map (c :: ·), p.2)

/-- The string is no text. -/
def loseText (p : Option (List Char) × List Char) : Option (List Char) × List Char := (none, p.2)

/-- The rest of a string after its opening quote if it is a text, and the text after it. -/
def parseString : List Char → Option (Option (List Char) × List Char)
  | [] => none
  | c :: s =>
      if c = quoteMark then some (some [], s)
      else if c = '\\' then match s with
        | [] => none
        | e :: s =>
            if e = 'u' then match s with
              | a :: b :: x :: y :: s => match codeUnit a b x y with
                  | none => none
                  | some n =>
                      if isLowSurrogate n then (parseString s).map loseText
                      else if isHighSurrogate n then match s with
                        | '\\' :: 'u' :: a' :: b' :: x' :: y' :: t => match codeUnit a' b' x' y' with
                            | none => none
                            | some m =>
                                if isLowSurrogate m then (parseString t).map
                                  (consChar (Char.ofNat (0x10000 + (n - 0xD800) * 0x400 + (m - 0xDC00))))
                                else (parseString ('\\' :: 'u' :: a' :: b' :: x' :: y' :: t)).map loseText
                        | s => (parseString s).map loseText
                      else (parseString s).map (consChar (Char.ofNat n))
              | _ => none
            else match unescape e with
              | some d => (parseString s).map (consChar d)
              | none => none
      else if c.toNat < 32 then none
      else (parseString s).map (consChar c)

theorem parseString_plain {c : Char} (hquote : c ≠ quoteMark) (hslash : c ≠ '\\') (hcontrol : ¬ c.toNat < 32)
    (s : List Char) : parseString (c :: s) = (parseString s).map (consChar c) := by
  rw [parseString.eq_def]
  dsimp only
  rw [if_neg hquote, if_neg hslash, if_neg hcontrol]

theorem parseString_unescape {e d : Char} (hu : e ≠ 'u') (h : unescape e = some d) (s : List Char) :
    parseString ('\\' :: e :: s) = (parseString s).map (consChar d) := by
  have hquote : '\\' ≠ quoteMark := by decide
  rw [parseString.eq_def]
  dsimp only
  rw [if_neg hquote, if_pos rfl]
  rw [if_neg hu, h]

theorem parseString_codeUnit {a b x y : Char} {n : Nat} (h : codeUnit a b x y = some n) (hn : n < 0xD800)
    (s : List Char) : parseString ('\\' :: 'u' :: a :: b :: x :: y :: s) =
      (parseString s).map (consChar (Char.ofNat n)) := by
  have hquote : '\\' ≠ quoteMark := by decide
  have hlow : ¬ isLowSurrogate n = true := by
    simp [isLowSurrogate]
    omega
  have hhigh : ¬ isHighSurrogate n = true := by
    simp [isHighSurrogate]
    omega
  rw [parseString.eq_def]
  dsimp only
  rw [if_neg hquote, if_pos rfl]
  rw [if_pos rfl, h]
  dsimp only
  rw [if_neg hlow, if_neg hhigh]

theorem codeUnit_control {n : Nat} (h : n < 32) :
    codeUnit '0' '0' (Nat.digitChar (n / 16)) (Nat.digitChar (n % 16)) = some n := by
  revert n
  decide

/-- Every character is read back from its escaped form. -/
theorem parseString_escapeChar (c : Char) (s : List Char) :
    parseString (escapeChar c ++ s) = (parseString s).map (consChar c) := by
  have hc : Char.ofNat c.toNat = c := Char.ofNat_toNat c
  have hof : ∀ e n, unescape e = some (Char.ofNat n) → c.toNat = n → unescape e = some c := by
    rintro e n he rfl
    rw [he, hc]
  unfold escapeChar
  by_cases hquote : c.toNat = 34
  · rw [hquote] at hc
    subst hc
    exact parseString_unescape (by decide) rfl s
  rw [if_neg hquote]
  by_cases hslash : c = '\\'
  · subst hslash
    exact parseString_unescape (by decide) rfl s
  rw [if_neg hslash]
  split
  next h => exact parseString_unescape (by decide) (hof 'b' 8 rfl h) s
  next h => exact parseString_unescape (by decide) (hof 't' 9 rfl h) s
  next h => exact parseString_unescape (by decide) (hof 'n' 10 rfl h) s
  next h => exact parseString_unescape (by decide) (hof 'f' 12 rfl h) s
  next h => exact parseString_unescape (by decide) (hof 'r' 13 rfl h) s
  next n _ _ _ _ _ =>
    by_cases hcontrol : c.toNat < 32
    · rw [if_pos hcontrol]
      have hread := parseString_codeUnit (codeUnit_control hcontrol) (by omega) s
      rw [hc] at hread
      exact hread
    · rw [if_neg hcontrol]
      refine parseString_plain ?_ hslash hcontrol s
      rintro rfl
      exact hquote rfl

/-- A quoted string is read back, and the text after it is left. -/
theorem parseString_quote (t s : List Char) : parseString (t.flatMap escapeChar ++ quoteMark :: s) = some (some t, s) := by
  induction t with
  | nil =>
      unfold parseString
      exact if_pos rfl
  | cons c t ih =>
      rw [List.flatMap_cons, List.append_assoc, parseString_escapeChar, ih]
      rfl

end Strings

section Numbers

/-- At least one digit. -/
def skipDigits (s : List Char) : Option (List Char) :=
  if (s.takeWhile Char.isDigit).isEmpty then none else some (s.dropWhile Char.isDigit)

/-- Whether there is a fraction, and the text after it. -/
def parseFraction (s : List Char) : Option (Bool × List Char) :=
  match s with
  | '.' :: s => (skipDigits s).map fun s => (true, s)
  | s => some (false, s)

def parseExponent (s : List Char) : Option (Bool × List Char) :=
  match s with
  | c :: s =>
      if c = 'e' ∨ c = 'E' then (skipDigits (match s with
        | '+' :: s => s
        | '-' :: s => s
        | s => s)).map fun s => (true, s)
      else some (false, c :: s)
  | [] => some (false, [])

def parseUnsigned (negative : Bool) (s : List Char) : Option (Value × List Char) := do
  let digits := s.takeWhile Char.isDigit
  if digits.isEmpty || (digits.head? == some '0' && digits.length != 1) then none
  let (fraction, s) ← parseFraction (s.dropWhile Char.isDigit)
  let (exponent, s) ← parseExponent s
  return (if negative || fraction || exponent then .otherNum else .num (Nat.ofDigitChars 10 digits 0), s)

def parseNumber (s : List Char) : Option (Value × List Char) :=
  match s with
  | '-' :: s => parseUnsigned true s
  | s => parseUnsigned false s

/-- What may come after a value in compact text. -/
def Closes (rest : List Char) : Prop := ∀ c ∈ rest.head?, c = ',' ∨ c = ']' ∨ c = '\x7d'

theorem closes_cons {c : Char} {s : List Char} (h : c = ',' ∨ c = ']' ∨ c = '\x7d') : Closes (c :: s) := by
  intro d hd
  cases Option.some.inj hd
  exact h

theorem isDigit_of_mem_decimal {n : Nat} {c : Char} (h : c ∈ decimal n) : c.isDigit = true :=
  Nat.isDigit_of_mem_toDigits (by decide) (by decide) h

/-- No number is written with a zero in front. -/
theorem head_decimal {n : Nat} (hn : 0 < n) : (decimal n).head? ≠ some '0' := by
  induction n using Nat.strongRecOn with
  | ind n ih =>
      unfold decimal
      by_cases hsmall : n < 10
      · have hdigit : ∀ d < 10, 0 < d → some (Nat.digitChar d) ≠ some '0' := by decide
        rw [Nat.toDigits_of_lt_base hsmall]
        exact hdigit n hsmall hn
      · have hrest := ih (n / 10) (Nat.div_lt_self hn (by decide)) (by omega)
        rw [Nat.toDigits_of_base_le (by decide) (by omega), List.head?_append_of_ne_nil _ Nat.toDigits_ne_nil]
        exact hrest

theorem Closes.takeWhile_isDigit {rest : List Char} (h : Closes rest) : rest.takeWhile Char.isDigit = [] := by
  cases rest with
  | nil => rfl
  | cons c s =>
      have hc : c.isDigit = false := by
        rcases h c rfl with rfl | rfl | rfl <;> rfl
      simp [hc]

theorem Closes.parseFraction {rest : List Char} (h : Closes rest) : parseFraction rest = some (false, rest) := by
  unfold JsonText.parseFraction
  split
  next s => rcases h '.' rfl with h | h | h <;> exact absurd h (by decide)
  · rfl

theorem Closes.parseExponent {rest : List Char} (h : Closes rest) : parseExponent rest = some (false, rest) := by
  cases rest with
  | nil => rfl
  | cons c s =>
      have hc : ¬ (c = 'e' ∨ c = 'E') := by
        rcases h c rfl with rfl | rfl | rfl <;> decide
      simp only [JsonText.parseExponent, if_neg hc]

/-- Text after which a number cannot go on. -/
structure EndsNumber (rest : List Char) : Prop where
  takeWhile_isDigit : rest.takeWhile Char.isDigit = []
  parseFraction : parseFraction rest = some (false, rest)
  parseExponent : parseExponent rest = some (false, rest)

theorem Closes.endsNumber {rest : List Char} (h : Closes rest) : EndsNumber rest :=
  ⟨h.takeWhile_isDigit, h.parseFraction, h.parseExponent⟩

theorem parseNumber_decimal (n : Nat) {rest : List Char} (h : EndsNumber rest) :
    parseNumber (decimal n ++ rest) = some (.num n, rest) := by
  have hall : ∀ c ∈ decimal n, c.isDigit = true := fun c hc => isDigit_of_mem_decimal hc
  have hne : decimal n ≠ [] := Nat.toDigits_ne_nil
  have hsign : parseNumber (decimal n ++ rest) = parseUnsigned false (decimal n ++ rest) := by
    unfold parseNumber
    split
    next s heq =>
      have hmem : '-' ∈ decimal n := by
        cases hd : decimal n with
        | nil => exact absurd hd hne
        | cons d ds =>
            rw [hd, List.cons_append] at heq
            exact (List.cons.inj heq).1 ▸ List.mem_cons_self
      exact absurd (hall _ hmem) (by decide)
    · rfl
  have htake : (decimal n ++ rest).takeWhile Char.isDigit = decimal n := by
    rw [List.takeWhile_append_of_pos hall, h.takeWhile_isDigit, List.append_nil]
  have hdrop : (decimal n ++ rest).dropWhile Char.isDigit = rest := by
    have hsplit := List.takeWhile_append_dropWhile (p := Char.isDigit) (l := decimal n ++ rest)
    rw [htake] at hsplit
    exact List.append_cancel_left hsplit
  have hzero : ((decimal n).isEmpty || ((decimal n).head? == some '0' && (decimal n).length != 1)) = false := by
    cases n with
    | zero => rfl
    | succ n => simp [hne, head_decimal (Nat.succ_pos n)]
  have hvalue : Nat.ofDigitChars 10 (decimal n) 0 = n := Nat.ofDigitChars_ten_toDigits
  rw [hsign]
  simp [parseUnsigned, htake, hdrop, hzero, h.parseFraction, h.parseExponent, hvalue]

end Numbers

def isSpace (c : Char) : Bool := c = ' ' || c = '\n' || c = '\t' || c = '\r'

def skipSpace (s : List Char) : List Char := s.dropWhile isSpace

def parseLiteral (text : List Char) (v : Value) (s : List Char) : Option (Value × List Char) :=
  if text.isPrefixOf s then some (v, s.drop text.length) else none

mutual
/-- A value at the front of the text. Each level of the recursion uses up one unit of fuel. -/
def parseValue : Nat → List Char → Option (Value × List Char)
  | 0, _ => none
  | fuel+1, s => match skipSpace s with
      | [] => none
      | c :: s =>
          if c.isDigit || c = '-' then parseNumber (c :: s)
          else if c = quoteMark then (parseString s).map fun p => (.ofText p.1, p.2)
          else if c = '[' then match skipSpace s with
            | ']' :: s => some (.arr [], s)
            | s => (parseItems fuel s).map fun p => (.arr p.1, p.2)
          else if c = '\x7b' then match skipSpace s with
            | '\x7d' :: s => some (.obj [], s)
            | s => (parseFields fuel s).map fun p => (.ofFields p.1, p.2)
          else if c = 'n' then parseLiteral "ull".toList .null s
          else if c = 't' then parseLiteral "rue".toList (.bool true) s
          else if c = 'f' then parseLiteral "alse".toList (.bool false) s
          else none

def parseItems : Nat → List Char → Option (List Value × List Char)
  | 0, _ => none
  | fuel+1, s => do
      let (x, s) ← parseValue fuel s
      match skipSpace s with
      | ',' :: s => do
          let (xs, s) ← parseItems fuel s
          return (x :: xs, s)
      | ']' :: s => return ([x], s)
      | _ => none

def parseFields : Nat → List Char → Option (Option (List (List Char × Value)) × List Char)
  | 0, _ => none
  | fuel+1, s => match skipSpace s with
      | [] => none
      | c :: s => do
          if c ≠ quoteMark then none
          let (k, s) ← parseString s
          match skipSpace s with
          | ':' :: s => do
              let (x, s) ← parseValue fuel s
              match skipSpace s with
              | ',' :: s => do
                  let (fields, s) ← parseFields fuel s
                  return (k.bind fun k => fields.map ((k, x) :: ·), s)
              | '\x7d' :: s => return (k.map fun k => [(k, x)], s)
              | _ => none
          | _ => none
end

/-- One value, and only white space after it. -/
def parse (s : List Char) : Option Value :=
  match parseValue (s.length + 1) s with
  | some (v, rest) => if (skipSpace rest).isEmpty then some v else none
  | none => none

section RoundTrip

/-- No value starts with white space or a closing bracket. -/
def Opens (s : List Char) : Prop := ∃ c t, s = c :: t ∧ isSpace c = false ∧ c ≠ ']' ∧ c ≠ '\x7d'

theorem Opens.append {s : List Char} (h : Opens s) (rest : List Char) : Opens (s ++ rest) := by
  obtain ⟨c, t, rfl, hc⟩ := h
  exact ⟨c, t ++ rest, rfl, hc⟩

theorem Opens.skipSpace {s : List Char} (h : Opens s) : skipSpace s = s := by
  obtain ⟨c, t, rfl, hc, -⟩ := h
  simp [JsonText.skipSpace, hc]

theorem opens_quote (t : List Char) : Opens (quote t) := ⟨quoteMark, _, rfl, rfl, by decide, by decide⟩

theorem opens_decimal (n : Nat) : Opens (decimal n) := by
  cases hd : decimal n with
  | nil => exact absurd hd Nat.toDigits_ne_nil
  | cons d ds =>
      have hdigit : d.isDigit = true := isDigit_of_mem_decimal (hd ▸ List.mem_cons_self)
      have hother : ∀ e : Char, e.isDigit = false → d ≠ e := by
        rintro e he rfl
        rw [hdigit] at he
        cases he
      refine ⟨d, ds, rfl, ?_, hother _ rfl, hother _ rfl⟩
      simp [isSpace, hother ' ' rfl, hother '\n' rfl, hother '\t' rfl, hother '\r' rfl]

theorem opens_render (x : Json) : Opens (render x) := by
  cases x with
  | str t => exact opens_quote t
  | num n => exact opens_decimal n
  | arr xs => exact ⟨'[', _, rfl, rfl, by decide, by decide⟩
  | obj fields => exact ⟨'\x7b', _, rfl, rfl, by decide, by decide⟩

theorem opens_renderItems {x : Json} {xs : List Json} : Opens (renderItems (x :: xs)) := by
  cases xs with
  | nil => exact opens_render x
  | cons y xs => exact (opens_render x).append _

theorem opens_renderFields {k : List Char} {x : Json} {fields : List (List Char × Json)} :
    Opens (renderFields ((k, x) :: fields)) := by
  cases fields with
  | nil => exact (opens_quote k).append _
  | cons y fields => exact (opens_quote k).append _

theorem parseValue_decimal (fuel n : Nat) {rest : List Char} (h : EndsNumber rest) :
    parseValue (fuel + 1) (decimal n ++ rest) = some (.num n, rest) := by
  cases hd : decimal n with
  | nil => exact absurd hd Nat.toDigits_ne_nil
  | cons d ds =>
      have hdigit : d.isDigit = true := isDigit_of_mem_decimal (hd ▸ List.mem_cons_self)
      have hskip : skipSpace (decimal n ++ rest) = decimal n ++ rest := ((opens_decimal n).append rest).skipSpace
      have hread := parseNumber_decimal n h
      rw [hd, List.cons_append] at hskip hread
      unfold parseValue
      rw [List.cons_append, hskip]
      simp only [hdigit, Bool.true_or, if_true, hread]

theorem parseValue_quote (fuel : Nat) (t rest : List Char) :
    parseValue (fuel + 1) (quote t ++ rest) = some (.str t, rest) := by
  have hread : parseString ((t.flatMap escapeChar ++ [quoteMark]) ++ rest) = some (some t, rest) := by
    rw [List.append_assoc]
    exact parseString_quote t rest
  calc parseValue (fuel + 1) (quote t ++ rest)
      = (parseString ((t.flatMap escapeChar ++ [quoteMark]) ++ rest)).map fun p => (.ofText p.1, p.2) := rfl
    _ = some (.str t, rest) := by rw [hread]; rfl

theorem parseValue_arr (fuel : Nat) {s : List Char} (h : Opens s) :
    parseValue (fuel + 1) ('[' :: s) = (parseItems fuel s).map fun p => (.arr p.1, p.2) := by
  have hskip := h.skipSpace
  obtain ⟨c, t, rfl, hc, hclose, -⟩ := h
  calc parseValue (fuel + 1) ('[' :: c :: t)
      = match skipSpace (c :: t) with
        | ']' :: s => some (.arr [], s)
        | s => (parseItems fuel s).map fun p => (.arr p.1, p.2) := rfl
    _ = (parseItems fuel (c :: t)).map fun p => (.arr p.1, p.2) := by
        rw [hskip]
        split
        next heq => exact absurd (List.cons.inj heq).1 hclose
        · rfl

theorem parseValue_obj (fuel : Nat) {s : List Char} (h : Opens s) :
    parseValue (fuel + 1) ('\x7b' :: s) = (parseFields fuel s).map fun p => (.ofFields p.1, p.2) := by
  have hskip := h.skipSpace
  obtain ⟨c, t, rfl, hc, -, hclose⟩ := h
  calc parseValue (fuel + 1) ('\x7b' :: c :: t)
      = match skipSpace (c :: t) with
        | '\x7d' :: s => some (.obj [], s)
        | s => (parseFields fuel s).map fun p => (.ofFields p.1, p.2) := rfl
    _ = (parseFields fuel (c :: t)).map fun p => (.ofFields p.1, p.2) := by
        rw [hskip]
        split
        next heq => exact absurd (List.cons.inj heq).1 hclose
        · rfl

/-- What comes after the bracket of an array, of an object, and in an array. -/
theorem parseValue_arr_cases (fuel : Nat) (s : List Char) : parseValue (fuel + 1) ('[' :: s) = match skipSpace s with
    | ']' :: s => some (.arr [], s)
    | s => (parseItems fuel s).map fun p => (.arr p.1, p.2) := rfl

theorem parseValue_obj_cases (fuel : Nat) (s : List Char) : parseValue (fuel + 1) ('\x7b' :: s) = match skipSpace s with
    | '\x7d' :: s => some (.obj [], s)
    | s => (parseFields fuel s).map fun p => (.ofFields p.1, p.2) := rfl

theorem parseItems_cases (fuel : Nat) (s : List Char) :
    parseItems (fuel + 1) s = (parseValue fuel s).bind fun p => match skipSpace p.2 with
      | ',' :: s => (parseItems fuel s).bind fun q => some (p.1 :: q.1, q.2)
      | ']' :: s => some ([p.1], s)
      | _ => none := rfl

theorem parseFields_cases {fuel : Nat} {s r : List Char} (h : skipSpace s = quoteMark :: r) :
    parseFields (fuel + 1) s = (parseString r).bind fun q => match skipSpace q.2 with
      | ':' :: s => (parseValue fuel s).bind fun p => match skipSpace p.2 with
          | ',' :: s => (parseFields fuel s).bind fun w => some (q.1.bind fun k => w.1.map ((k, p.1) :: ·), w.2)
          | '\x7d' :: s => some (q.1.map fun k => [(k, p.1)], s)
          | _ => none
      | _ => none := by
  conv_lhs => rw [parseFields, h]
  rfl

/-- The last element, with the bracket after it. -/
theorem parseItems_last {fuel : Nat} {s rest : List Char} {v : Value}
    (h : parseValue fuel s = some (v, ']' :: rest)) : parseItems (fuel + 1) s = some ([v], rest) := by
  unfold parseItems
  rw [h]
  rfl

theorem parseItems_more {fuel : Nat} {s rest rest' : List Char} {v : Value} {vs : List Value}
    (h : parseValue fuel s = some (v, ',' :: rest)) (hrest : parseItems fuel rest = some (vs, rest')) :
    parseItems (fuel + 1) s = some (v :: vs, rest') := by
  unfold parseItems
  rw [h]
  change (parseItems fuel rest >>= fun p => some (v :: p.1, p.2)) = _
  rw [hrest]
  rfl

/-- The key of a field and what follows its colon. -/
theorem parseFields_key (fuel : Nat) (k s : List Char) :
    parseFields (fuel + 1) (quote k ++ ':' :: s) = (parseValue fuel s).bind fun p => match skipSpace p.2 with
      | ',' :: s => (parseFields fuel s).bind fun q => some (q.1.map ((k, p.1) :: ·), q.2)
      | '\x7d' :: s => some (some [(k, p.1)], s)
      | _ => none := by
  have hread : parseString ((k.flatMap escapeChar ++ [quoteMark]) ++ ':' :: s) = some (some k, ':' :: s) := by
    rw [List.append_assoc]
    exact parseString_quote k (':' :: s)
  calc parseFields (fuel + 1) (quote k ++ ':' :: s)
      = (parseString ((k.flatMap escapeChar ++ [quoteMark]) ++ ':' :: s)).bind fun q => match skipSpace q.2 with
        | ':' :: s => (parseValue fuel s).bind fun p => match skipSpace p.2 with
            | ',' :: s => (parseFields fuel s).bind fun r => some (q.1.bind fun k => r.1.map ((k, p.1) :: ·), r.2)
            | '\x7d' :: s => some (q.1.map fun k => [(k, p.1)], s)
            | _ => none
        | _ => none := rfl
    _ = _ := by rw [hread]; rfl

theorem parseFields_last {fuel : Nat} {k s rest : List Char} {v : Value}
    (h : parseValue fuel s = some (v, '\x7d' :: rest)) :
    parseFields (fuel + 1) (quote k ++ ':' :: s) = some (some [(k, v)], rest) := by
  rw [parseFields_key, h]
  rfl

theorem parseFields_more {fuel : Nat} {k s rest rest' : List Char} {v : Value} {fields : List (List Char × Value)}
    (h : parseValue fuel s = some (v, ',' :: rest)) (hrest : parseFields fuel rest = some (some fields, rest')) :
    parseFields (fuel + 1) (quote k ++ ':' :: s) = some (some ((k, v) :: fields), rest') := by
  rw [parseFields_key, h]
  change ((parseFields fuel rest).bind fun q => some (q.1.map ((k, v) :: ·), q.2)) = _
  rw [hrest]
  rfl

/-- With this fuel, one unit for each character, what was written is read back and the text
after it is left. -/
structure ReadsBack (fuel : Nat) : Prop where
  value : ∀ x rest, (render x).length < fuel → Closes rest → parseValue fuel (render x ++ rest) = some (x.value, rest)
  items : ∀ x xs rest, (renderItems (x :: xs)).length + 1 < fuel →
    parseItems fuel (renderItems (x :: xs) ++ ']' :: rest) = some (valueItems (x :: xs), rest)
  fields : ∀ k x fields rest, (renderFields ((k, x) :: fields)).length + 1 < fuel →
    parseFields fuel (renderFields ((k, x) :: fields) ++ '\x7d' :: rest) =
      some (some (valueFields ((k, x) :: fields)), rest)

namespace ReadsBack
variable {fuel : Nat}

theorem value_succ (h : ReadsBack fuel) (x : Json) (rest : List Char) (hfuel : (render x).length < fuel + 1)
    (hrest : Closes rest) : parseValue (fuel + 1) (render x ++ rest) = some (x.value, rest) := by
  cases x with
  | str t => exact parseValue_quote fuel t rest
  | num n => exact parseValue_decimal fuel n hrest.endsNumber
  | arr xs => cases xs with
    | nil => rfl
    | cons x xs =>
        simp only [render, List.length_cons, List.length_append, List.length_nil] at hfuel
        simp only [render, List.cons_append, List.append_assoc, List.nil_append]
        rw [parseValue_arr fuel (opens_renderItems.append _), h.items x xs rest (by omega)]
        rfl
  | obj fields => cases fields with
    | nil => rfl
    | cons field fields =>
        obtain ⟨k, x⟩ := field
        simp only [render, List.length_cons, List.length_append, List.length_nil] at hfuel
        simp only [render, List.cons_append, List.append_assoc, List.nil_append]
        rw [parseValue_obj fuel (opens_renderFields.append _), h.fields k x fields rest (by omega)]
        rfl

theorem items_succ (h : ReadsBack fuel) (x : Json) (xs : List Json) (rest : List Char)
    (hfuel : (renderItems (x :: xs)).length + 1 < fuel + 1) :
    parseItems (fuel + 1) (renderItems (x :: xs) ++ ']' :: rest) = some (valueItems (x :: xs), rest) := by
  cases xs with
  | nil =>
      simp only [renderItems] at hfuel ⊢
      exact parseItems_last (h.value x _ (by omega) (closes_cons (.inr (.inl rfl))))
  | cons y xs =>
      simp only [renderItems, List.length_append, List.length_cons] at hfuel
      simp only [renderItems, List.append_assoc, List.cons_append]
      exact parseItems_more (h.value x _ (by omega) (closes_cons (.inl rfl))) (h.items y xs rest (by omega))

theorem fields_succ (h : ReadsBack fuel) (k : List Char) (x : Json) (fields : List (List Char × Json))
    (rest : List Char) (hfuel : (renderFields ((k, x) :: fields)).length + 1 < fuel + 1) :
    parseFields (fuel + 1) (renderFields ((k, x) :: fields) ++ '\x7d' :: rest) =
      some (some (valueFields ((k, x) :: fields)), rest) := by
  cases fields with
  | nil =>
      simp only [renderFields, List.length_append, List.length_cons] at hfuel
      simp only [renderFields, List.append_assoc, List.cons_append]
      exact parseFields_last (h.value x _ (by omega) (closes_cons (.inr (.inr rfl))))
  | cons field fields =>
      obtain ⟨l, y⟩ := field
      simp only [renderFields, List.length_append, List.length_cons] at hfuel
      simp only [renderFields, List.append_assoc, List.cons_append]
      exact parseFields_more (h.value x _ (by omega) (closes_cons (.inl rfl))) (h.fields l y fields rest (by omega))

end ReadsBack

theorem readsBack (fuel : Nat) : ReadsBack fuel := by
  induction fuel with
  | zero => exact ⟨nofun, nofun, nofun⟩
  | succ fuel ih => exact ⟨ih.value_succ, ih.items_succ, ih.fields_succ⟩

theorem parse_render (x : Json) : parse (render x) = some x.value := by
  have h := (readsBack _).value x [] (Nat.lt_succ_self _) nofun
  rw [List.append_nil] at h
  unfold parse
  rw [h]
  rfl

end RoundTrip

end JsonText
