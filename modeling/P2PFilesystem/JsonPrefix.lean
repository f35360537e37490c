import P2PFilesystem.JsonPretty

/-!
# JSON text that goes on

What has been read stays read when more text follows, unless the reading stopped only because
the text did. The reading of an object stops at its bracket: only white space may follow it, and
no text that is cut off before the bracket is an object.
-/
namespace JsonText

/-- The escape at the front of a string that goes on is there as a whole. -/
theorem parseString_escape_cut {s t r : List Char} {a b x y : Char} (hs : parseString s ≠ none)
    (h : s ++ t = '\\' :: 'u' :: a :: b :: x :: y :: r) : ∃ u, s = '\\' :: 'u' :: a :: b :: x :: y :: u := by
  match s with
  | [] => exact absurd rfl hs
  | [_] =>
      cases (List.cons.inj h).1
      exact absurd rfl hs
  | c :: d :: u =>
      obtain ⟨hc, htail⟩ := List.cons.inj h
      obtain ⟨hd, htail⟩ := List.cons.inj htail
      subst hc hd
      match u with
      | [] => exact absurd rfl hs
      | [_] => exact absurd rfl hs
      | [_, _] => exact absurd rfl hs
      | [_, _, _] => exact absurd rfl hs
      | _ :: _ :: _ :: _ :: u =>
          cases htail
          exact ⟨u, rfl⟩

/-- Half of a surrogate pair before anything but the other half. -/
theorem parseString_lone {a b x y : Char} {n : Nat} {s : List Char} (h : codeUnit a b x y = some n)
    (hlow : ¬ isLowSurrogate n = true) (hhigh : isHighSurrogate n = true)
    (hnext : ∀ a' b' x' y' t, s ≠ '\\' :: 'u' :: a' :: b' :: x' :: y' :: t) :
    parseString ('\\' :: 'u' :: a :: b :: x :: y :: s) = (parseString s).map loseText := by
  have hquote : '\\' ≠ quoteMark := by decide
  rw [parseString.eq_def]
  dsimp only
  rw [if_neg hquote, if_pos rfl, if_pos rfl, h]
  dsimp only
  rw [if_neg hlow, if_pos hhigh]
  split
  next a' b' x' y' t => exact absurd rfl (hnext a' b' x' y' t)
  · rfl

/-- What comes after an escape or a character, if the rest of the string is read on. -/
theorem map_parseString_append {s : List Char} {f : Option (List Char) → Option (List Char)} {w : Option (List Char)}
    {rest t : List Char}
    (ih : ∀ {w rest}, parseString s = some (w, rest) → parseString (s ++ t) = some (w, rest ++ t))
    (h : (parseString s).map (fun p => (f p.1, p.2)) = some (w, rest)) :
    (parseString (s ++ t)).map (fun p => (f p.1, p.2)) = some (w, rest ++ t) := by
  obtain ⟨p, hp, heq⟩ := Option.map_eq_some_iff.mp h
  cases heq
  rw [ih hp]
  rfl

theorem parseString_append {s : List Char} {w : Option (List Char)} {rest : List Char}
    (h : parseString s = some (w, rest)) (t : List Char) : parseString (s ++ t) = some (w, rest ++ t) := by
  fun_induction parseString s generalizing w rest with
  | case2 s =>
      cases h
      unfold parseString
      exact if_pos rfl
  | case5 a b x y s n hn hlow hquote ih =>
      simp only [List.cons_append]
      rw [parseString.eq_def]
      simp only [hn, hlow, if_neg hquote, if_true]
      exact map_parseString_append (f := fun _ => none) ih h
  | case7 a b x y n hn hlow hhigh a' b' x' y' s m hm hlow' hquote ih =>
      simp only [List.cons_append]
      rw [parseString.eq_def]
      simp only [hn, hm, if_neg hquote, if_neg hlow, hhigh, hlow', if_true]
      exact map_parseString_append ih h
  | case8 a b x y n hn hlow hhigh a' b' x' y' s m hm hlow' hquote ih =>
      have hrest := map_parseString_append (f := fun _ => none) ih h
      simp only [List.cons_append] at hrest ⊢
      rw [parseString.eq_def]
      simp only [hn, hm, if_neg hquote, if_neg hlow, hhigh, if_neg hlow', if_true]
      exact hrest
  | case9 a b x y n hn hlow hhigh s hnext hquote ih =>
      obtain ⟨p, hp, -⟩ := Option.map_eq_some_iff.mp h
      have hgoes : ∀ a' b' x' y' u, s ++ t ≠ '\\' :: 'u' :: a' :: b' :: x' :: y' :: u := by
        intro a' b' x' y' u heq
        obtain ⟨v, hv⟩ := parseString_escape_cut (hp ▸ Option.some_ne_none p) heq
        exact hnext a' b' x' y' v hv
      exact (parseString_lone hn hlow hhigh hgoes).trans (map_parseString_append (f := fun _ => none) ih h)
  | case10 a b x y s n hn hlow hhigh hquote ih =>
      simp only [List.cons_append]
      rw [parseString.eq_def]
      simp only [hn, if_neg hquote, if_neg hlow, if_neg hhigh, if_true]
      exact map_parseString_append ih h
  | case12 e s hu d hd hquote ih =>
      rw [List.cons_append, List.cons_append, parseString_unescape hu hd]
      exact map_parseString_append ih h
  | case15 c s hquote hslash hcontrol ih =>
      rw [List.cons_append, parseString_plain hquote hslash hcontrol]
      exact map_parseString_append ih h
  | _ => cases h

section Numbers
variable {s rest : List Char}

theorem dropWhile_append_of_rest {p : Char → Bool} (h : s.dropWhile p ≠ []) (t : List Char) :
    (s ++ t).dropWhile p = s.dropWhile p ++ t := by
  rw [List.dropWhile_append, if_neg (by simpa using h)]

theorem takeWhile_append_of_rest {p : Char → Bool} (h : s.dropWhile p ≠ []) (t : List Char) :
    (s ++ t).takeWhile p = s.takeWhile p := by
  have hwhole : s.takeWhile p ++ (s.dropWhile p ++ t) = s ++ t := by
    rw [← List.append_assoc, List.takeWhile_append_dropWhile]
  have hsplit : (s ++ t).takeWhile p ++ (s ++ t).dropWhile p = s ++ t := List.takeWhile_append_dropWhile
  rw [dropWhile_append_of_rest h t] at hsplit
  exact List.append_cancel_right (hsplit.trans hwhole.symm)

theorem skipDigits_append (h : skipDigits s = some rest) (hrest : rest ≠ []) (t : List Char) :
    skipDigits (s ++ t) = some (rest ++ t) := by
  unfold skipDigits at h ⊢
  split at h
  · cases h
  next hdigits =>
    cases h
    rw [takeWhile_append_of_rest hrest, if_neg hdigits, dropWhile_append_of_rest hrest]

theorem parseFraction_append {b : Bool} (h : parseFraction s = some (b, rest)) (hrest : rest ≠ []) (t : List Char) :
    parseFraction (s ++ t) = some (b, rest ++ t) := by
  unfold parseFraction at h
  split at h
  next s =>
    obtain ⟨r, hr, heq⟩ := Option.map_eq_some_iff.mp h
    cases heq
    simp only [List.cons_append, parseFraction, skipDigits_append hr hrest, Option.map_some]
  next hdot =>
    cases h
    cases s with
    | nil => exact absurd rfl hrest
    | cons c s =>
        unfold parseFraction
        split
        next heq => exact absurd (congrArg (· :: s) (List.cons.inj heq).1) (hdot s)
        · rfl

/-- The text after a sign. -/
def skipSign : List Char → List Char
  | '+' :: s => s
  | '-' :: s => s
  | s => s

theorem skipSign_append (h : s ≠ []) (t : List Char) : skipSign (s ++ t) = skipSign s ++ t := by
  match s with
  | [] => exact absurd rfl h
  | c :: s =>
      by_cases hplus : c = '+'
      · subst hplus
        rfl
      by_cases hminus : c = '-'
      · subst hminus
        rfl
      simp [skipSign, hplus, hminus]

theorem parseExponent_append {b : Bool} (h : parseExponent s = some (b, rest)) (hrest : rest ≠ []) (t : List Char) :
    parseExponent (s ++ t) = some (b, rest ++ t) := by
  have hread : ∀ (c : Char) (s : List Char), parseExponent (c :: s) =
      if c = 'e' ∨ c = 'E' then (skipDigits (skipSign s)).map fun s => (true, s) else some (false, c :: s) :=
    fun _ _ => rfl
  cases s with
  | nil =>
      cases h
      exact absurd rfl hrest
  | cons c s =>
      rw [List.cons_append, hread]
      rw [hread] at h
      split at h
      next hc =>
        obtain ⟨r, hr, heq⟩ := Option.map_eq_some_iff.mp h
        cases heq
        have hne : s ≠ [] := by
          rintro rfl
          cases hr
        rw [if_pos hc, skipSign_append hne, skipDigits_append hr hrest]
        rfl
      next hc =>
        cases h
        rw [if_neg hc]
        rfl

theorem parseUnsigned_eq (negative : Bool) (s : List Char) : parseUnsigned negative s =
    if (s.takeWhile Char.isDigit).isEmpty || ((s.takeWhile Char.isDigit).head? == some '0' &&
      (s.takeWhile Char.isDigit).length != 1) then none
    else (parseFraction (s.dropWhile Char.isDigit)).bind fun p => (parseExponent p.2).bind fun q =>
      some (if negative || p.1 || q.1 then .otherNum else .num (Nat.ofDigitChars 10 (s.takeWhile Char.isDigit) 0), q.2) := by
  unfold parseUnsigned
  split
  next hdigits => exact if_pos hdigits
  next hdigits => exact if_neg hdigits

theorem parseUnsigned_append {negative : Bool} {v : Value} (h : parseUnsigned negative s = some (v, rest))
    (hrest : rest ≠ []) (t : List Char) : parseUnsigned negative (s ++ t) = some (v, rest ++ t) := by
  rw [parseUnsigned_eq] at h ⊢
  split at h
  · cases h
  next hdigits =>
    obtain ⟨p, hp, h⟩ := Option.bind_eq_some_iff.mp h
    obtain ⟨q, hq, h⟩ := Option.bind_eq_some_iff.mp h
    cases h
    have hfraction : p.2 ≠ [] := by
      intro hnil
      rw [hnil] at hq
      cases hq
      exact hrest rfl
    have hwhole : s.dropWhile Char.isDigit ≠ [] := by
      intro hnil
      rw [hnil] at hp
      cases hp
      exact hfraction rfl
    rw [takeWhile_append_of_rest hwhole, dropWhile_append_of_rest hwhole, if_neg hdigits, parseFraction_append hp hfraction]
    simp only [Option.bind_some, parseExponent_append hq hrest]

theorem parseNumber_append {v : Value} (h : parseNumber s = some (v, rest)) (hrest : rest ≠ []) (t : List Char) :
    parseNumber (s ++ t) = some (v, rest ++ t) := by
  unfold parseNumber at h
  split at h
  next s => exact parseUnsigned_append h hrest t
  next hsign =>
    cases s with
    | nil => exact absurd h (by simp [parseUnsigned])
    | cons c s =>
        unfold parseNumber
        split
        next heq => exact absurd (congrArg (· :: s) (List.cons.inj heq).1) (hsign s)
        · exact parseUnsigned_append h hrest t

end Numbers

theorem parseLiteral_append {text s rest : List Char} {u v : Value} (h : parseLiteral text u s = some (v, rest))
    (t : List Char) : parseLiteral text u (s ++ t) = some (v, rest ++ t) := by
  unfold parseLiteral at h ⊢
  split at h
  next hprefix =>
    obtain ⟨r, rfl⟩ := List.isPrefixOf_iff_prefix.mp hprefix
    cases h
    rw [List.append_assoc, if_pos (List.isPrefixOf_iff_prefix.mpr (List.prefix_append _ _)), List.drop_left, List.drop_left]
  · cases h

theorem skipSpace_append {s r : List Char} {c : Char} (h : skipSpace s = c :: r) (t : List Char) :
    skipSpace (s ++ t) = c :: (r ++ t) := by
  have hne : skipSpace s ≠ [] := h ▸ List.cons_ne_nil c r
  exact (dropWhile_append_of_rest hne t).trans (congrArg (· ++ t) h)

def Value.isObj : Value → Bool
  | .obj _ => true
  | .otherObj => true
  | _ => false

theorem Value.isObj_ofFields (fields : Option (List (List Char × Value))) : (ofFields fields).isObj = true := by
  cases fields with
  | none => rfl
  | some fields => rfl

theorem parseNumber_isObj {s rest : List Char} {v : Value} (h : parseNumber s = some (v, rest)) : v.isObj = false := by
  have hunsigned : ∀ negative s, parseUnsigned negative s = some (v, rest) → v.isObj = false := by
    intro negative s h
    rw [parseUnsigned_eq] at h
    split at h
    · cases h
    · obtain ⟨p, hp, h⟩ := Option.bind_eq_some_iff.mp h
      obtain ⟨q, hq, h⟩ := Option.bind_eq_some_iff.mp h
      cases h
      split
      · rfl
      · rfl
  unfold parseNumber at h
  split at h
  · exact hunsigned _ _ h
  · exact hunsigned _ _ h

/-- What is read with this fuel is read with more, whatever follows. -/
structure GoesOn (fuel : Nat) : Prop where
  value : ∀ {s rest v more}, parseValue fuel s = some (v, rest) → rest ≠ [] ∨ v.isObj = true → fuel ≤ more →
    ∀ t, parseValue more (s ++ t) = some (v, rest ++ t)
  items : ∀ {s rest xs more}, parseItems fuel s = some (xs, rest) → fuel ≤ more →
    ∀ t, parseItems more (s ++ t) = some (xs, rest ++ t)
  fields : ∀ {s rest fields more}, parseFields fuel s = some (fields, rest) → fuel ≤ more →
    ∀ t, parseFields more (s ++ t) = some (fields, rest ++ t)

theorem parseItems_nil (fuel : Nat) : parseItems fuel [] = none := by
  match fuel with
  | 0 => rfl
  | 1 => rfl
  | fuel+2 => rfl

theorem parseFields_nil (fuel : Nat) : parseFields fuel [] = none := by
  cases fuel with
  | zero => rfl
  | succ fuel => rfl

theorem opens_of_parseFields {fuel : Nat} {s rest : List Char} {fields : Option (List (List Char × Value))}
    (h : parseFields (fuel + 1) s = some (fields, rest)) : ∃ r, skipSpace s = quoteMark :: r := by
  unfold parseFields at h
  split at h
  · cases h
  next c r hskip =>
    by_cases hc : c = quoteMark
    · exact ⟨r, hskip.trans (congrArg (· :: r) hc)⟩
    · rw [if_pos hc] at h
      cases h

namespace GoesOn
variable {fuel more : Nat} {s rest : List Char}

theorem arr (h : GoesOn fuel) {v : Value} (hread : parseValue (fuel + 1) ('[' :: s) = some (v, rest))
    (hfuel : fuel ≤ more) (t : List Char) : parseValue (more + 1) ('[' :: (s ++ t)) = some (v, rest ++ t) := by
  rw [parseValue_arr_cases] at hread ⊢
  split at hread
  next r hskip =>
    cases hread
    rw [skipSpace_append hskip]
    rfl
  next hclose =>
    obtain ⟨p, hp, heq⟩ := Option.map_eq_some_iff.mp hread
    cases heq
    cases hskip : skipSpace s with
    | nil =>
        rw [hskip, parseItems_nil] at hp
        cases hp
    | cons c r =>
        rw [hskip] at hp
        rw [skipSpace_append hskip]
        split
        next heq => exact absurd (hskip.trans (congrArg (· :: r) (List.cons.inj heq).1)) (hclose r)
        · exact congrArg _ (h.items hp hfuel t)

theorem obj (h : GoesOn fuel) {v : Value} (hread : parseValue (fuel + 1) ('\x7b' :: s) = some (v, rest))
    (hfuel : fuel ≤ more) (t : List Char) : parseValue (more + 1) ('\x7b' :: (s ++ t)) = some (v, rest ++ t) := by
  rw [parseValue_obj_cases] at hread ⊢
  split at hread
  next r hskip =>
    cases hread
    rw [skipSpace_append hskip]
    rfl
  next hclose =>
    obtain ⟨p, hp, heq⟩ := Option.map_eq_some_iff.mp hread
    cases heq
    cases hskip : skipSpace s with
    | nil =>
        rw [hskip, parseFields_nil] at hp
        cases hp
    | cons c r =>
        rw [hskip] at hp
        rw [skipSpace_append hskip]
        split
        next heq => exact absurd (hskip.trans (congrArg (· :: r) (List.cons.inj heq).1)) (hclose r)
        · exact congrArg _ (h.fields hp hfuel t)

theorem value_succ (h : GoesOn fuel) {v : Value} (hread : parseValue (fuel + 1) s = some (v, rest))
    (hrest : rest ≠ [] ∨ v.isObj = true) (hfuel : fuel ≤ more) (t : List Char) :
    parseValue (more + 1) (s ++ t) = some (v, rest ++ t) := by
  cases hskip : skipSpace s with
  | nil =>
      simp only [parseValue, hskip] at hread
      cases hread
  | cons c r =>
      have hspace : skipSpace (c :: r) = c :: r := hskip ▸ skipSpace_idem s
      have hspaces : skipSpace (c :: (r ++ t)) = c :: (r ++ t) := skipSpace_append hspace t
      rw [parseValue_congr _ (hskip.trans hspace.symm)] at hread
      rw [parseValue_congr _ ((skipSpace_append hskip t).trans hspaces.symm)]
      by_cases harr : c = '['
      · subst harr
        exact h.arr hread hfuel t
      by_cases hobj : c = '\x7b'
      · subst hobj
        exact h.obj hread hfuel t
      have hhead : ∀ fuel r, skipSpace (c :: r) = c :: r → parseValue (fuel + 1) (c :: r) =
          if c.isDigit || c = '-' then parseNumber (c :: r)
          else if c = quoteMark then (parseString r).map fun p => (.ofText p.1, p.2)
          else if c = 'n' then parseLiteral "ull".toList .null r
          else if c = 't' then parseLiteral "rue".toList (.bool true) r
          else if c = 'f' then parseLiteral "alse".toList (.bool false) r
          else none := by
        intro fuel r hr
        simp only [parseValue, hr, if_neg harr, if_neg hobj]
      rw [hhead _ _ hspace] at hread
      rw [hhead _ _ hspaces]
      split_ifs at hread ⊢ with hnumber hquote hnull htrue hfalse
      · refine parseNumber_append hread (hrest.resolve_right ?_) t
        rw [parseNumber_isObj hread]
        exact Bool.false_ne_true
      · obtain ⟨p, hp, heq⟩ := Option.map_eq_some_iff.mp hread
        cases heq
        rw [parseString_append hp]
        rfl
      · exact parseLiteral_append hread t
      · exact parseLiteral_append hread t
      · exact parseLiteral_append hread t

theorem items_succ (h : GoesOn fuel) {xs : List Value} (hread : parseItems (fuel + 1) s = some (xs, rest))
    (hfuel : fuel ≤ more) (t : List Char) : parseItems (more + 1) (s ++ t) = some (xs, rest ++ t) := by
  rw [parseItems_cases] at hread ⊢
  obtain ⟨p, hp, hread⟩ := Option.bind_eq_some_iff.mp hread
  have hp' : ∀ c r, skipSpace p.2 = c :: r → parseValue more (s ++ t) = some (p.1, p.2 ++ t) := by
    intro c r hskip
    refine h.value hp (.inl ?_) hfuel t
    intro hnil
    rw [hnil] at hskip
    cases hskip
  split at hread
  next r hskip =>
    obtain ⟨q, hq, heq⟩ := Option.bind_eq_some_iff.mp hread
    cases heq
    simp only [hp' _ _ hskip, Option.bind_some, skipSpace_append hskip, h.items hq hfuel t]
  next r hskip =>
    cases hread
    simp only [hp' _ _ hskip, Option.bind_some, skipSpace_append hskip]
  · cases hread

theorem fields_succ (h : GoesOn fuel) {fields : Option (List (List Char × Value))}
    (hread : parseFields (fuel + 1) s = some (fields, rest)) (hfuel : fuel ≤ more) (t : List Char) :
    parseFields (more + 1) (s ++ t) = some (fields, rest ++ t) := by
  obtain ⟨r, hquote⟩ := opens_of_parseFields hread
  rw [parseFields_cases hquote] at hread
  rw [parseFields_cases (skipSpace_append hquote t)]
  obtain ⟨q, hq, hread⟩ := Option.bind_eq_some_iff.mp hread
  rw [parseString_append hq t, Option.bind_some]
  split at hread
  next r hcolon =>
    rw [skipSpace_append hcolon]
    obtain ⟨p, hp, hread⟩ := Option.bind_eq_some_iff.mp hread
    have hp' : ∀ c u, skipSpace p.2 = c :: u → parseValue more (r ++ t) = some (p.1, p.2 ++ t) := by
      intro c u hskip
      refine h.value hp (.inl ?_) hfuel t
      intro hnil
      rw [hnil] at hskip
      cases hskip
    split at hread
    next u hskip =>
      obtain ⟨w, hw, heq⟩ := Option.bind_eq_some_iff.mp hread
      cases heq
      simp only [hp' _ _ hskip, Option.bind_some, skipSpace_append hskip, h.fields hw hfuel t]
    next u hskip =>
      cases hread
      simp only [hp' _ _ hskip, Option.bind_some, skipSpace_append hskip]
    · cases hread
  · cases hread

end GoesOn

theorem goesOn (fuel : Nat) : GoesOn fuel := by
  have hmore : ∀ {fuel more}, fuel + 1 ≤ more → ∃ n, more = n + 1 ∧ fuel ≤ n := fun {fuel more} h =>
    ⟨more - 1, by omega, by omega⟩
  induction fuel with
  | zero => exact ⟨nofun, nofun, nofun⟩
  | succ fuel ih =>
      constructor
      · intro s rest v more hread hrest hfuel
        obtain ⟨n, rfl, hn⟩ := hmore hfuel
        exact ih.value_succ hread hrest hn
      · intro s rest xs more hread hfuel
        obtain ⟨n, rfl, hn⟩ := hmore hfuel
        exact ih.items_succ hread hn
      · intro s rest fields more hread hfuel
        obtain ⟨n, rfl, hn⟩ := hmore hfuel
        exact ih.fields_succ hread hn

/-- An object that has been read is the whole text, up to white space after it. -/
theorem parse_append_of_isObj {s : List Char} {v : Value} (h : parse s = some v) (hobj : v.isObj = true) (t : List Char) :
    parse (s ++ t) = if (skipSpace t).isEmpty then some v else none := by
  unfold parse at h
  split at h
  next w rest hread =>
    split at h
    next hspace =>
      cases h
      have hfuel : s.length + 1 ≤ (s ++ t).length + 1 := by
        rw [List.length_append]
        omega
      have hgo := (goesOn _).value hread (.inr hobj) hfuel t
      have hskip : skipSpace (rest ++ t) = skipSpace t := List.dropWhile_append.trans (if_pos hspace)
      unfold parse
      rw [hgo]
      simp only [hskip]
    · cases h
  · cases h

/-- A text that ends with a bracket is no object when it is cut off anywhere. -/
theorem isObj_parse_take {s : List Char} (hwhole : parse s ≠ none) (hend : ∃ u, s = u ++ ['\x7d']) {n : Nat}
    (hn : n < s.length) {v : Value} (h : parse (s.take n) = some v) : v.isObj = false := by
  by_contra hobj
  obtain ⟨u, hu⟩ := hend
  have hlen : n ≤ u.length := by
    rw [hu, List.length_append, List.length_singleton] at hn
    omega
  have hspace : skipSpace (s.drop n) ≠ [] := by
    intro hnil
    have hall := List.dropWhile_eq_nil_iff.mp hnil '\x7d' (by
      rw [hu, List.drop_append_of_le_length hlen]
      exact List.mem_append_right _ List.mem_cons_self)
    exact absurd hall (by decide)
  rw [← List.take_append_drop n s, parse_append_of_isObj h (Bool.eq_true_of_not_eq_false hobj),
    if_neg (by simpa using hspace)] at hwhole
  exact hwhole rfl

/-- What opens with a bracket is an object if it is a value at all. -/
theorem isObj_parse_brace {s : List Char} {v : Value} (h : parse ('\x7b' :: s) = some v) : v.isObj = true := by
  unfold parse at h
  split at h
  next w rest hread =>
    have hobj : w.isObj = true := by
      rw [parseValue_obj_cases] at hread
      split at hread
      · cases hread
        rfl
      · obtain ⟨p, -, hp⟩ := Option.map_eq_some_iff.mp hread
        cases hp
        exact Value.isObj_ofFields p.1
    split at h
    · cases h
      exact hobj
    · cases h
  · cases h

/-- The text of an object is no value when it is cut off anywhere. -/
theorem parse_take_eq_none {s : List Char} (hwhole : parse s ≠ none) (hstart : ∃ t, s = '\x7b' :: t)
    (hend : ∃ u, s = u ++ ['\x7d']) {n : Nat} (hn : n < s.length) : parse (s.take n) = none := by
  cases hread : parse (s.take n) with
  | none => rfl
  | some v =>
      obtain ⟨t, ht⟩ := hstart
      cases n with
      | zero => cases hread
      | succ n =>
          have hcut : s.take (n + 1) = '\x7b' :: t.take n := by rw [ht, List.take_succ_cons]
          have hobj := isObj_parse_brace (hcut ▸ hread)
          rw [isObj_parse_take hwhole hend hn hread] at hobj
          cases hobj

end JsonText
