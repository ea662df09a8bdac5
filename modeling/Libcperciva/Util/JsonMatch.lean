import Libcperciva.Util.JsonValue

/-!
# Comparing names, `match_str`

It reads the characters of a name one by one, next to those of the key.  At the
end of the key it stays there, so a name may have NULs behind the key.
-/

namespace Libcperciva.Util.JsonMatch

open Libcperciva.Lib.Json
open Libcperciva.Util.JsonModel
open Libcperciva.Util.JsonSkip
open Libcperciva.Util.JsonValue

variable {s t r key : List UInt8} {c : UInt8} {name : Option (List UInt8)}

/-! ## Names -/

/-- The names that are read, from behind the opening quote on, and the bytes
for which they stand unless there is a `\u` escape. -/
inductive NameChars :
    List UInt8 → Option (List UInt8) → List UInt8 → Prop where
  | close {r : List UInt8} : NameChars (34 :: r) (some []) r
  | plain {c : UInt8} {s r : List UInt8} {name : Option (List UInt8)}
      (noQuote : c ≠ 34) (noEscape : c ≠ 92) (rest : NameChars s name r) :
      NameChars (c :: s) (name.map (c :: ·)) r
  | escape {e c : UInt8} {s r : List UInt8} {name : Option (List UInt8)}
      (isEscape : unescape e = some c) (rest : NameChars s name r) :
      NameChars (92 :: e :: s) (name.map (c :: ·)) r
  | unicode {h1 h2 h3 h4 : UInt8} {s r : List UInt8}
      {name : Option (List UInt8)} (rest : NameChars s name r) :
      NameChars (92 :: 117 :: h1 :: h2 :: h3 :: h4 :: s) none r

theorem nameChars_length (isName : NameChars s name r) :
    r.length < s.length := by
  induction isName with
  | close => exact Nat.lt_succ_self _
  | plain _ _ _ ih => exact Nat.lt_succ_of_lt ih
  | escape _ _ ih => exact Nat.lt_succ_of_lt (Nat.lt_succ_of_lt ih)
  | unicode _ ih =>
      simp only [List.length_cons]
      omega

/-- The key, with any number of NULs behind it. -/
def keyIs : (name key : List UInt8) → Bool
  | [], key => key.isEmpty
  | c :: name, key => c == key.headD 0 && keyIs name key.tail

/-- Whether a name is the key. -/
def nameIs (name : Option (List UInt8)) (key : List UInt8) : Bool :=
  match name with
  | none => false
  | some name => keyIs name key

theorem keyIs_iff {name : List UInt8} (noNul : 0 ∉ key) :
    keyIs name key = true ↔ ∃ j, name = key ++ List.replicate j 0 := by
  induction name generalizing key with
  | nil =>
      unfold keyIs
      rw [List.isEmpty_iff]
      constructor
      · rintro rfl
        exact ⟨0, rfl⟩
      · rintro ⟨j, none⟩
        exact (List.append_eq_nil_iff.mp none.symm).1
  | cons c name ih =>
      unfold keyIs
      rw [Bool.and_eq_true, beq_iff_eq]
      cases key with
      | nil =>
          rw [List.tail_nil, ih List.not_mem_nil]
          constructor
          · rintro ⟨rfl, j, rfl⟩
            exact ⟨j + 1, rfl⟩
          · rintro ⟨j, split⟩
            cases j with
            | zero => cases split
            | succ j =>
                obtain ⟨rfl, rfl⟩ := List.cons.inj split
                exact ⟨rfl, j, rfl⟩
      | cons d key =>
          rw [List.tail_cons,
            ih fun member => noNul (List.mem_cons_of_mem _ member)]
          constructor
          · rintro ⟨rfl, j, rfl⟩
            exact ⟨j, rfl⟩
          · rintro ⟨j, split⟩
            obtain ⟨rfl, rfl⟩ := List.cons.inj split
            exact ⟨rfl, j, rfl⟩

/-- A name without a NUL is the key only if it is equal to it. -/
theorem keyIs_iff_eq {name : List UInt8} (noNul : 0 ∉ key)
    (noNulName : 0 ∉ name) : keyIs name key = true ↔ name = key := by
  rw [keyIs_iff noNul]
  constructor
  · rintro ⟨j, rfl⟩
    cases j with
    | zero => exact List.append_nil key
    | succ j =>
        refine absurd ?_ noNulName
        exact List.mem_append_right _ List.mem_cons_self
  · rintro rfl
    exact ⟨0, (List.append_nil _).symm⟩

/-! ## The place in the key -/

theorem first_key (key : List UInt8) :
    first (key ++ [0]) = .ok (key.headD 0) := by
  cases key with
  | nil => rfl
  | cons c key => rfl

theorem target_key (noNul : 0 ∉ key) :
    target (key.headD 0) (key ++ [0]) = key.tail ++ [0] := by
  cases key with
  | nil => rfl
  | cons c key =>
      have isByte : c ≠ 0 := fun isNul => noNul (isNul ▸ List.mem_cons_self)
      exact if_pos isByte

theorem noNul_tail (noNul : 0 ∉ key) : 0 ∉ key.tail :=
  fun member => noNul (List.mem_of_mem_tail member)

theorem escaped_eq (c : UInt8) : escaped c = unescape c := rfl

theorem unescape_unicode : unescape 117 = none := by decide

theorem unescape_ne_unicode {e : UInt8} (isEscape : unescape e = some c) :
    e ≠ 117 := by
  rintro rfl
  cases isEscape

/-! ## One character -/

/-- The flag after a character is compared. -/
theorem compared (c d : UInt8) (foundit more : Bool) :
    ((if c ≠ d then false else foundit) && more) =
      (foundit && (c == d && more)) := by
  by_cases same : c = d
  · subst same
    simp
  · simp [same]

theorem matchChars_close (foundit : Bool) (s : List UInt8)
    (noNul : 0 ∉ key) :
    matchChars (34 :: s) (key ++ [0]) foundit =
      .ok (s, foundit && key.isEmpty) := by
  rw [matchChars.eq_def]
  dsimp only
  rw [if_pos rfl, first_key]
  cases key with
  | nil =>
      change Except.ok (s, if (0 : UInt8) ≠ 0 then false else foundit) = _
      rw [if_neg (not_not_intro rfl), List.isEmpty_nil, Bool.and_true]
  | cons c key =>
      have isByte : c ≠ 0 := fun isNul => noNul (isNul ▸ List.mem_cons_self)
      change Except.ok (s, if c ≠ 0 then false else foundit) = _
      rw [if_pos isByte, List.isEmpty_cons, Bool.and_false]

theorem matchChars_plain (noQuote : c ≠ 34) (noEscape : c ≠ 92)
    (noNul : 0 ∉ key) (s : List UInt8) (foundit : Bool) :
    matchChars (c :: s) (key ++ [0]) foundit =
      matchChars s (key.tail ++ [0])
        (if c ≠ key.headD 0 then false else foundit) := by
  conv => lhs; rw [matchChars.eq_def]
  dsimp only
  rw [if_neg noQuote, if_neg noEscape, first_key]
  dsimp only [bind, Except.bind]
  rw [target_key noNul]

theorem matchChars_escape {e : UInt8} (isEscape : unescape e = some c)
    (noNul : 0 ∉ key) (s : List UInt8) (foundit : Bool) :
    matchChars (92 :: e :: s) (key ++ [0]) foundit =
      matchChars s (key.tail ++ [0])
        (if c ≠ key.headD 0 then false else foundit) := by
  conv => lhs; rw [matchChars.eq_def]
  dsimp only
  rw [if_neg (by decide), if_pos rfl, escaped_eq, isEscape]
  dsimp only
  rw [first_key]
  dsimp only [bind, Except.bind]
  rw [target_key noNul]

theorem matchChars_unicode (h1 h2 h3 h4 : UInt8) (noNul : 0 ∉ key)
    (s : List UInt8) (foundit : Bool) :
    matchChars (92 :: 117 :: h1 :: h2 :: h3 :: h4 :: s) (key ++ [0]) foundit =
      matchChars s (key.tail ++ [0]) false := by
  conv => lhs; rw [matchChars.eq_def]
  dsimp only
  rw [if_neg (by decide), if_pos rfl, escaped_eq, unescape_unicode]
  dsimp only
  rw [if_pos rfl, first_key]
  dsimp only [bind, Except.bind]
  rw [target_key noNul]

/-- A `\u` that is cut off. -/
theorem matchChars_cut (short : s.length < 4) (key : List UInt8)
    (foundit : Bool) :
    matchChars (92 :: 117 :: s) key foundit = .ok ([], foundit) := by
  rw [matchChars.eq_def]
  dsimp only
  rw [if_neg (by decide), if_pos rfl, escaped_eq, unescape_unicode]
  dsimp only
  rw [if_pos rfl]
  match s with
  | [] => rfl
  | [_] => rfl
  | [_, _] => rfl
  | [_, _, _] => rfl
  | _ :: _ :: _ :: _ :: s =>
      simp only [List.length_cons] at short
      omega

theorem matchChars_invalid {e : UInt8} (noEscape : unescape e = none)
    (noUnicode : e ≠ 117) (s key : List UInt8) (foundit : Bool) :
    matchChars (92 :: e :: s) key foundit = .ok ([], false) := by
  rw [matchChars.eq_def]
  dsimp only
  rw [if_neg (by decide), if_pos rfl, escaped_eq, noEscape]
  dsimp only
  rw [if_neg noUnicode]

/-! ## A name -/

/-- A name is read, and compared with the key. -/
theorem matchChars_of_name (isName : NameChars s name r) (noNul : 0 ∉ key)
    (foundit : Bool) :
    matchChars s (key ++ [0]) foundit =
      .ok (r, foundit && nameIs name key) := by
  induction isName generalizing key foundit with
  | close => exact matchChars_close foundit _ noNul
  | @plain c s r name noQuote noEscape _ ih =>
      rw [matchChars_plain noQuote noEscape noNul, ih (noNul_tail noNul)]
      cases name with
      | none => simp [nameIs]
      | some name =>
          have flag := compared c (key.headD 0) foundit (keyIs name key.tail)
          exact congrArg (fun flag => Except.ok (r, flag)) flag
  | @escape e c s r name isEscape _ ih =>
      rw [matchChars_escape isEscape noNul, ih (noNul_tail noNul)]
      cases name with
      | none => simp [nameIs]
      | some name =>
          have flag := compared c (key.headD 0) foundit (keyIs name key.tail)
          exact congrArg (fun flag => Except.ok (r, flag)) flag
  | unicode _ ih =>
      rw [matchChars_unicode _ _ _ _ noNul, ih (noNul_tail noNul),
        Bool.false_and]
      simp [nameIs]

/-- Where `match_str` stops: at `end`, or behind a name. -/
theorem matchChars_spec (s : List UInt8) (noNul : 0 ∉ key)
    (foundit : Bool) :
    ∃ r found, matchChars s (key ++ [0]) foundit = .ok (r, found) ∧
      r <:+ s ∧ (r = [] ∨ r.length < s.length ∧ ∃ name, NameChars s name r) :=
    by
  induction length : s.length using Nat.strongRecOn
    generalizing s key foundit with
  | _ n ih =>
      subst length
      have shorter : ∀ (buf key : List UInt8) (foundit : Bool), 0 ∉ key →
          buf.length < s.length → ∃ r found,
            matchChars buf (key ++ [0]) foundit = .ok (r, found) ∧
            r <:+ buf ∧ (r = [] ∨ r.length < buf.length ∧
              ∃ name, NameChars buf name r) :=
        fun buf key foundit noNul less =>
          ih buf.length less buf noNul foundit rfl
      cases s with
      | nil =>
          refine ⟨[], foundit, ?_, List.suffix_refl _, Or.inl rfl⟩
          rw [matchChars.eq_def]
      | cons ch buf =>
          by_cases isQuote : ch = 34
          · subst isQuote
            exact ⟨buf, _, matchChars_close foundit buf noNul,
              List.suffix_cons _ _,
              Or.inr ⟨Nat.lt_succ_self _, _, .close⟩⟩
          by_cases isEscape : ch = 92
          · subst isEscape
            cases buf with
            | nil =>
                refine ⟨[], foundit, ?_, List.nil_suffix, Or.inl rfl⟩
                rw [matchChars.eq_def]
                dsimp only
                rw [if_neg (by decide), if_pos rfl]
            | cons e buf =>
                have less : buf.length < (92 :: e :: buf).length := by
                  simp only [List.length_cons]
                  omega
                cases unescaped : unescape e with
                | some c =>
                    obtain ⟨r, found, result, suffix, read⟩ :=
                      shorter buf key.tail _ (noNul_tail noNul) less
                    refine ⟨r, found,
                      (matchChars_escape unescaped noNul buf foundit).trans
                        result, suffix.trans ⟨[92, e], rfl⟩, ?_⟩
                    rcases read with atEnd | ⟨inside, name, isName⟩
                    · exact Or.inl atEnd
                    · exact Or.inr ⟨Nat.lt_trans inside less, _,
                        .escape unescaped isName⟩
                | none =>
                    by_cases isUnicode : e = 117
                    · subst isUnicode
                      by_cases short : buf.length < 4
                      · exact ⟨[], foundit, matchChars_cut short _ foundit,
                          List.nil_suffix, Or.inl rfl⟩
                      · obtain ⟨h1, h2, h3, h4, rest, rfl⟩ :=
                          four_of_length (Nat.not_lt.mp short)
                        have less : rest.length < (92 :: 117 :: h1 :: h2 ::
                            h3 :: h4 :: rest).length := by
                          simp only [List.length_cons]
                          omega
                        obtain ⟨r, found, result, suffix, read⟩ :=
                          shorter rest key.tail false (noNul_tail noNul) less
                        refine ⟨r, found,
                          (matchChars_unicode h1 h2 h3 h4 noNul rest
                            foundit).trans result,
                          suffix.trans ⟨[92, 117, h1, h2, h3, h4], rfl⟩, ?_⟩
                        rcases read with atEnd | ⟨inside, name, isName⟩
                        · exact Or.inl atEnd
                        · exact Or.inr ⟨Nat.lt_trans inside less, _,
                            .unicode isName⟩
                    · exact ⟨[], false,
                        matchChars_invalid unescaped isUnicode _ _ foundit,
                        List.nil_suffix, Or.inl rfl⟩
          · have less : buf.length < (ch :: buf).length := Nat.lt_succ_self _
            obtain ⟨r, found, result, suffix, read⟩ :=
              shorter buf key.tail _ (noNul_tail noNul) less
            refine ⟨r, found,
              (matchChars_plain isQuote isEscape noNul buf foundit).trans
                result, suffix.trans (List.suffix_cons _ _), ?_⟩
            rcases read with atEnd | ⟨inside, name, isName⟩
            · exact Or.inl atEnd
            · exact Or.inr ⟨Nat.lt_trans inside less, _,
                .plain isQuote isEscape isName⟩

/-! ## Strings and names of RFC 8259 -/

variable {text : List UInt8 → Prop}

theorem looseChars_append {bytes : List UInt8}
    (unescaped : ∀ c ∈ bytes, Unescaped c) (rest : LooseChars s r) :
    LooseChars (bytes ++ s) r := by
  induction bytes with
  | nil => exact rest
  | cons c bytes ih =>
      obtain ⟨-, noQuote, noEscape⟩ := unescaped c List.mem_cons_self
      exact .plain noQuote noEscape
        (ih fun d member => unescaped d (List.mem_cons_of_mem _ member))

theorem looseChars_of_chars (plain : PlainText text)
    (chars : Chars text s name r) : LooseChars s r := by
  induction chars with
  | close => exact .close
  | plain isText _ ih => exact looseChars_append (plain _ isText) ih
  | escape isEscape _ ih => exact .escape (unescape_ne_unicode isEscape) ih
  | unicode _ _ ih => exact .unicode ih

theorem nameChars_append {bytes : List UInt8}
    (unescaped : ∀ c ∈ bytes, Unescaped c) (rest : NameChars s name r) :
    NameChars (bytes ++ s) (name.map (bytes ++ ·)) r := by
  induction bytes with
  | nil =>
      cases name with
      | none => exact rest
      | some name => exact rest
  | cons c bytes ih =>
      obtain ⟨-, noQuote, noEscape⟩ := unescaped c List.mem_cons_self
      have more := NameChars.plain noQuote noEscape
        (ih fun d member => unescaped d (List.mem_cons_of_mem _ member))
      rw [Option.map_map] at more
      exact more

theorem nameChars_of_chars (plain : PlainText text)
    (chars : Chars text s name r) : NameChars s name r := by
  induction chars with
  | close => exact .close
  | plain isText _ ih => exact nameChars_append (plain _ isText) ih
  | escape isEscape _ ih => exact .escape isEscape ih
  | unicode _ _ ih => exact .unicode ih

theorem unescape_ne_zero {e : UInt8} (isEscape : unescape e = some c) :
    c ≠ 0 := by
  rintro rfl
  unfold unescape at isEscape
  split_ifs at isEscape
  all_goals exact absurd isEscape (by decide)

/-- A name has no NUL. -/
theorem noNul_of_chars (plain : PlainText text) {bytes : List UInt8}
    (chars : Chars text s (some bytes) r) : 0 ∉ bytes := by
  generalize isName : some bytes = name at chars
  induction chars generalizing bytes with
  | close =>
      cases isName
      exact List.not_mem_nil
  | @plain front s r name isText _ ih =>
      cases name with
      | none => cases isName
      | some name =>
          cases isName
          intro member
          rcases List.mem_append.mp member with inFront | inRest
          · exact absurd (plain _ isText 0 inFront).1 (by decide)
          · exact ih rfl inRest
  | @escape e c s r name isEscape _ ih =>
      cases name with
      | none => cases isName
      | some name =>
          cases isName
          intro member
          rcases List.mem_cons.mp member with isFirst | inRest
          · exact unescape_ne_zero isEscape isFirst.symm
          · exact ih rfl inRest
  | unicode _ _ _ => cases isName

theorem nameIs_of_chars (plain : PlainText text)
    (chars : Chars text s name r) (noNul : 0 ∉ key) :
    nameIs name key = true ↔ name = some key := by
  cases name with
  | none => exact iff_of_false Bool.false_ne_true (Option.some_ne_none key).symm
  | some bytes =>
      rw [Option.some.injEq]
      exact keyIs_iff_eq noNul (noNul_of_chars plain chars)

/-! ## Values of RFC 8259 -/

theorem isDigit_numchar (isDigit : IsDigit c) : c ∈ numchars := by
  obtain ⟨low, high⟩ := isDigit
  have lower : 48 ≤ c.toNat := UInt8.le_iff_toNat_le.mp low
  have upper : c.toNat ≤ 57 := UInt8.le_iff_toNat_le.mp high
  have all : ∀ n ∈ List.range 58, 48 ≤ n → UInt8.ofNat n ∈ numchars := by
    decide
  have isNumchar := all c.toNat (List.mem_range.mpr (by omega)) lower
  rwa [UInt8.ofNat_toNat] at isNumchar

theorem isDigits_numchars {v : List UInt8} (isDigits : IsDigits v) :
    ∀ c ∈ v, c ∈ numchars :=
  fun c member => isDigit_numchar (isDigits.2 c member)

/-- All characters of a number are those which `skip_number` skips. -/
theorem isNumber_loose {v : List UInt8} (isNumber : IsNumber v) :
    loose.number v := by
  obtain ⟨sign, int, frac, exp, isSign, isInt, isFrac, isExp, rfl⟩ := isNumber
  have signs : ∀ c ∈ sign, c ∈ numchars := by
    rcases isSign with rfl | rfl
    · exact List.forall_mem_nil _
    · exact List.forall_mem_singleton.mpr (by decide)
  have ints : int ≠ [] ∧ ∀ c ∈ int, c ∈ numchars := by
    rcases isInt with rfl | ⟨isDigits, -⟩
    · exact ⟨List.cons_ne_nil _ _, List.forall_mem_singleton.mpr (by decide)⟩
    · exact ⟨isDigits.1, isDigits_numchars isDigits⟩
  have fracs : ∀ c ∈ frac, c ∈ numchars := by
    rcases isFrac with rfl | ⟨digits, isDigits, rfl⟩
    · exact fun c none => absurd none List.not_mem_nil
    · intro c member
      rcases List.mem_cons.mp member with rfl | inDigits
      · decide
      · exact isDigits_numchars isDigits c inDigits
  have exps : ∀ c ∈ exp, c ∈ numchars := by
    rcases isExp with rfl | ⟨e, esign, digits, isE, isEsign, isDigits, rfl⟩
    · exact fun c none => absurd none List.not_mem_nil
    · intro c member
      rcases List.mem_cons.mp member with rfl | inRest
      · rcases isE with rfl | rfl
        all_goals decide
      · rcases List.mem_append.mp inRest with inSign | inDigits
        · rcases isEsign with rfl | rfl | rfl
          · exact absurd inSign List.not_mem_nil
          · rw [List.mem_singleton.mp inSign]
            decide
          · rw [List.mem_singleton.mp inSign]
            decide
        · exact isDigits_numchars isDigits c inDigits
  refine ⟨?_, ?_⟩
  · simp [ints.1]
  · intro c member
    simp only [List.mem_append] at member
    rcases member with ((inSign | inInt) | inFrac) | inExp
    · exact signs c inSign
    · exact ints.2 c inInt
    · exact fracs c inFrac
    · exact exps c inExp

/-- The loose grammar has all items of RFC 8259. -/
theorem loose_of_rfc8259 (plain : PlainText text) {kind : Kind}
    (derives : Derives (rfc8259 text) kind s r) :
    Derives loose kind s r := by
  refine derives.mono ?_ fun v => isNumber_loose
  rintro s r ⟨name, chars⟩
  exact looseChars_of_chars plain chars

end Libcperciva.Util.JsonMatch
