import Libcperciva.Util.Cstring
import Mathlib.Data.List.TakeWhile

/-!
# Numbers in strings

The subject sequence of `strtoimax` and `strtoumax` is the longest initial
part of a string, behind white space, that has the expected form.  The
functions find it with one scan; the theorem of this module is that they find
the right one.
-/

namespace Libcperciva.Util.NumberForm

open Libcperciva.Util.Cstring

variable {base root : Nat} {s u pre digits rest : List UInt8} {v : Int}
  {negative : Bool}

/-! ## The form of a number -/

/-- A sign, and whether it is a minus sign. -/
inductive IsSign : List UInt8 → Bool → Prop where
  | none : IsSign [] false
  | plus : IsSign [43] false
  | minus : IsSign [45] true

/-- The prefix of a hexadecimal number. -/
def IsHexPrefix (pre : List UInt8) : Prop := pre = [48, 120] ∨ pre = [48, 88]

/-- The base of the digits that follow a prefix. -/
inductive IsRadix : (base : Nat) → (pre digits : List UInt8) → (root : Nat) →
    Prop where
  | given (base : Nat) (digits : List UInt8) (known : base ≠ 0) :
      IsRadix base [] digits base
  | hexadecimal (base : Nat) (pre digits : List UInt8)
      (allows : base = 0 ∨ base = 16) (isPrefix : IsHexPrefix pre) :
      IsRadix base pre digits 16
  | octal (digits : List UInt8) (zero : digits.head? = some 48) :
      IsRadix 0 [] digits 8
  | decimal (digits : List UInt8) (notZero : digits.head? ≠ some 48) :
      IsRadix 0 [] digits 10

/-- The digits of a number, and a prefix before them. -/
structure Unsigned (base : Nat) (u : List UInt8) (root : Nat)
    (digits rest : List UInt8) : Prop where
  split : ∃ pre, u = pre ++ (digits ++ rest) ∧ IsRadix base pre digits root
  nonempty : digits ≠ []
  areDigits : ∀ b ∈ digits, isDigit root b = true

/-- The integer that a sign and digits stand for. -/
def signed (negative : Bool) (magnitude : Nat) : Int :=
  if negative then -magnitude else magnitude

/-- A string begins with a number of the expected form: white space, a sign,
and digits. -/
structure Form (base : Nat) (s : List UInt8) (v : Int)
    (rest : List UInt8) : Prop where
  written : ∃ blanks sgn u root digits negative,
    s = blanks ++ (sgn ++ u) ∧ (∀ b ∈ blanks, isspace b = true) ∧
      IsSign sgn negative ∧ Unsigned base u root digits rest ∧
      v = signed negative (digitsValue root digits)

/-- A string begins with a number, and this is the longest one. -/
structure Numeral (base : Nat) (s : List UInt8) (v : Int)
    (rest : List UInt8) : Prop where
  form : Form base s v rest
  longest : ∀ v' rest', Form base s v' rest' → rest.length ≤ rest'.length

/-- The number that the scan finds. -/
def numeral (base : Nat) (s : List UInt8) : Option (Int × List UInt8) :=
  let subject := subject base s
  if subject.digits = [] then none
  else some (signed subject.negative subject.magnitude, subject.endptr)

/-! ## Digits -/

theorem not_isspace_of_digit {b : UInt8} (digit : isDigit root b = true) :
    isspace b = false := by
  by_contra space
  rw [Bool.not_eq_false] at space
  have noValue : ∀ n : Fin 256, isspace ⟨⟨n⟩⟩ = true →
      digitValue ⟨⟨n⟩⟩ = none := by decide +kernel
  unfold isDigit at digit
  rw [noValue b.toBitVec.toFin space] at digit
  exact Bool.noConfusion digit

theorem digit_ne_sign {b : UInt8} (digit : isDigit root b = true) :
    b ≠ 43 ∧ b ≠ 45 := by
  constructor
  all_goals
    rintro rfl
    exact Bool.noConfusion digit

/-- The byte behind the zero of a hexadecimal prefix is no digit of a number
whose base is 16 or less. -/
theorem hexPrefix_not_digit {x : UInt8} (isX : x = 120 ∨ x = 88)
    (small : root ≤ 16) : isDigit root x = false := by
  rcases isX with rfl | rfl
  all_goals
    show decide (33 < root) = false
    exact decide_eq_false (by omega)

theorem exists_of_hasPrefix (begins : hasPrefix u = true) :
    ∃ x c w, u = 48 :: x :: c :: w ∧ (x = 120 ∨ x = 88) ∧
      isDigit 16 c = true := by
  unfold hasPrefix at begins
  split at begins
  · next x c w =>
      rw [Bool.and_eq_true, Bool.or_eq_true, decide_eq_true_eq,
        decide_eq_true_eq] at begins
      exact ⟨x, c, w, rfl, begins.1, begins.2⟩
  · exact Bool.noConfusion begins

theorem hasPrefix_of_digit {x c : UInt8} {w : List UInt8}
    (isX : x = 120 ∨ x = 88) (digit : isDigit 16 c = true) :
    hasPrefix (48 :: x :: c :: w) = true := by
  show ((decide (x = 120) || decide (x = 88)) && isDigit 16 c) = true
  rw [digit, Bool.and_true, Bool.or_eq_true, decide_eq_true_eq,
    decide_eq_true_eq]
  exact isX

/-- A number does not begin like white space or like a sign. -/
theorem Unsigned.begins (number : Unsigned base u root digits rest) :
    ∃ c w, u = c :: w ∧ isspace c = false ∧ c ≠ 43 ∧ c ≠ 45 := by
  rcases number.split with ⟨pre, rfl, isRadix⟩
  rcases List.exists_cons_of_ne_nil number.nonempty with ⟨d, ds, rfl⟩
  have digit := number.areDigits d List.mem_cons_self
  have fromDigit : ∃ c w, [] ++ (d :: ds ++ rest) = c :: w ∧
      isspace c = false ∧ c ≠ 43 ∧ c ≠ 45 :=
    ⟨d, ds ++ rest, rfl, not_isspace_of_digit digit, digit_ne_sign digit⟩
  cases isRadix with
  | given _ _ known => exact fromDigit
  | hexadecimal _ _ _ allows isPrefix =>
      rcases isPrefix with rfl | rfl
      · exact ⟨48, _, rfl, rfl, by decide, by decide⟩
      · exact ⟨48, _, rfl, rfl, by decide, by decide⟩
  | octal _ zero => exact fromDigit
  | decimal _ notZero => exact fromDigit

/-! ## The scan -/

/-- What the scan finds behind the sign. -/
def scanned (base : Nat) (u : List UInt8) : List UInt8 × List UInt8 :=
  let root := radix base u
  ((skipPrefix root u).takeWhile (isDigit root),
    (skipPrefix root u).dropWhile (isDigit root))

/-- The scan goes as far as a number does; a number that ends there is the
one that is found. -/
structure Reaches (base : Nat) (u : List UInt8) (root : Nat)
    (digits rest : List UInt8) : Prop where
  nonempty : (scanned base u).1 ≠ []
  shorter : (scanned base u).2.length ≤ rest.length
  same : (scanned base u).2.length = rest.length →
    root = radix base u ∧ digits = (scanned base u).1 ∧
      rest = (scanned base u).2

/-- The digits are where the scan looks for them. -/
theorem reaches_direct (nonempty : digits ≠ [])
    (areDigits : ∀ b ∈ digits, isDigit root b = true)
    (isRoot : radix base u = root)
    (here : skipPrefix root u = digits ++ rest) :
    Reaches base u root digits rest := by
  have taken : (scanned base u).1 =
      digits ++ rest.takeWhile (isDigit root) := by
    unfold scanned
    dsimp only
    rw [isRoot, here, List.takeWhile_append_of_pos areDigits]
  have dropped : (scanned base u).2 = rest.dropWhile (isDigit root) := by
    unfold scanned
    dsimp only
    rw [isRoot, here, List.dropWhile_append_of_pos areDigits]
  have split : rest.takeWhile (isDigit root) ++
      rest.dropWhile (isDigit root) = rest := List.takeWhile_append_dropWhile
  have lengths := congrArg List.length split
  rw [List.length_append] at lengths
  constructor
  · rw [taken]
    exact fun empty => nonempty (List.append_eq_nil_iff.mp empty).1
  · rw [dropped]
    omega
  · intro same
    rw [dropped] at same
    have nothing : rest.takeWhile (isDigit root) = [] :=
      List.eq_nil_of_length_eq_zero (by omega)
    rw [nothing, List.nil_append] at split
    refine ⟨isRoot.symm, ?_, ?_⟩
    · rw [taken, nothing, List.append_nil]
    · rw [dropped, split]

/-- The digits are only the zero of a prefix. -/
theorem reaches_prefix (nonempty : digits ≠ [])
    (areDigits : ∀ b ∈ digits, isDigit root b = true)
    (isHex : radix base u = 16) (begins : hasPrefix u = true)
    (here : u = digits ++ rest) (small : root ≤ 16) :
    Reaches base u root digits rest := by
  rcases exists_of_hasPrefix begins with ⟨x, c, w, isU, isX, digit⟩
  have notDigit := hexPrefix_not_digit isX small
  have isRest : rest = x :: c :: w := by
    rw [isU] at here
    cases digits with
    | nil => exact absurd rfl nonempty
    | cons d ds =>
        rcases List.cons.inj here with ⟨_, tail⟩
        cases ds with
        | nil => exact tail.symm
        | cons d' ds =>
            rcases List.cons.inj tail with ⟨rfl, _⟩
            have isDigit' := areDigits x
              (List.mem_cons_of_mem _ List.mem_cons_self)
            rw [notDigit] at isDigit'
            exact Bool.noConfusion isDigit'
  have skipped : skipPrefix 16 u = c :: w := by
    unfold skipPrefix
    rw [if_pos ⟨rfl, begins⟩, isU]
    rfl
  have taken : (scanned base u).1 = c :: w.takeWhile (isDigit 16) := by
    unfold scanned
    dsimp only
    rw [isHex, skipped, List.takeWhile_cons_of_pos digit]
  have dropped : (scanned base u).2 = w.dropWhile (isDigit 16) := by
    unfold scanned
    dsimp only
    rw [isHex, skipped, List.dropWhile_cons_of_pos digit]
  have less : (scanned base u).2.length < rest.length := by
    have atMost := (List.dropWhile_suffix (isDigit 16) (l := w)).length_le
    rw [dropped, isRest, List.length_cons, List.length_cons]
    omega
  constructor
  · rw [taken]
    exact List.cons_ne_nil _ _
  · exact less.le
  · exact fun same => absurd same less.ne

/-- The scan goes at least as far as any number. -/
theorem Unsigned.reaches (number : Unsigned base u root digits rest) :
    Reaches base u root digits rest := by
  have nonempty := number.nonempty
  have areDigits := number.areDigits
  rcases number.split with ⟨pre, here, isRadix⟩
  cases isRadix with
  | given _ _ known =>
      have isRoot : radix base u = base := if_pos known
      by_cases skips : base = 16 ∧ hasPrefix u = true
      · exact reaches_prefix nonempty areDigits (isRoot.trans skips.1)
          skips.2 here skips.1.le
      · refine reaches_direct nonempty areDigits isRoot ?_
        exact (if_neg skips).trans here
  | hexadecimal _ _ _ allows isPrefix =>
      have begins : hasPrefix u = true ∧ u.drop 2 = digits ++ rest := by
        rcases List.exists_cons_of_ne_nil nonempty with ⟨d, ds, rfl⟩
        have digit := areDigits d List.mem_cons_self
        rcases isPrefix with rfl | rfl
        · rw [here]
          exact ⟨hasPrefix_of_digit (Or.inl rfl) digit, rfl⟩
        · rw [here]
          exact ⟨hasPrefix_of_digit (Or.inr rfl) digit, rfl⟩
      refine reaches_direct nonempty areDigits ?_ ?_
      · unfold radix
        rcases allows with rfl | rfl
        · rw [if_neg (not_not.mpr rfl), if_pos begins.1]
        · rw [if_pos (by decide)]
      · unfold skipPrefix
        rw [if_pos ⟨rfl, begins.1⟩]
        exact begins.2
  | octal _ zero =>
      have head : u.head? = some 48 := by
        rw [here, List.nil_append, List.head?_append, zero]
        rfl
      by_cases skips : hasPrefix u = true
      · refine reaches_prefix nonempty areDigits ?_ skips here (by decide)
        unfold radix
        rw [if_neg (not_not.mpr rfl), if_pos skips]
      · refine reaches_direct nonempty areDigits ?_ ?_
        · unfold radix
          rw [if_neg (not_not.mpr rfl), if_neg skips, if_pos head]
        · exact (if_neg fun both => skips both.2).trans here
  | decimal _ notZero =>
      have head : u.head? ≠ some 48 := by
        rcases List.exists_cons_of_ne_nil nonempty with ⟨d, ds, rfl⟩
        rw [here]
        exact notZero
      have noPrefix : ¬ hasPrefix u = true := by
        intro begins
        rcases exists_of_hasPrefix begins with ⟨x, c, w, isU, _⟩
        rw [isU] at head
        exact head rfl
      refine reaches_direct nonempty areDigits ?_ ?_
      · unfold radix
        rw [if_neg (not_not.mpr rfl), if_neg noPrefix, if_neg head]
      · exact (if_neg fun both => noPrefix both.2).trans here

/-- What the scan finds is a number. -/
theorem scanned_unsigned (found : (scanned base u).1 ≠ []) :
    Unsigned base u (radix base u) (scanned base u).1 (scanned base u).2 := by
  have split : (scanned base u).1 ++ (scanned base u).2 =
      skipPrefix (radix base u) u := List.takeWhile_append_dropWhile
  refine ⟨?_, found, fun b member => List.mem_takeWhile_imp member⟩
  by_cases skips : radix base u = 16 ∧ hasPrefix u = true
  · rcases exists_of_hasPrefix skips.2 with ⟨x, c, w, isU, isX, digit⟩
    refine ⟨[48, x], ?_, ?_⟩
    · rw [split, skipPrefix, if_pos skips, isU]
      rfl
    · rw [skips.1]
      refine IsRadix.hexadecimal _ _ _ ?_ ?_
      · by_cases known : base = 0
        · exact Or.inl known
        · exact Or.inr ((if_pos known).symm.trans skips.1)
      · exact isX.imp (fun isX => by rw [isX]) (fun isX => by rw [isX])
  · have notSkipped : skipPrefix (radix base u) u = u := if_neg skips
    rw [notSkipped] at split
    refine ⟨[], split.symm, ?_⟩
    by_cases known : base = 0
    · subst known
      have noPrefix : ¬ hasPrefix u = true := by
        intro begins
        refine skips ⟨?_, begins⟩
        unfold radix
        rw [if_neg (not_not.mpr rfl), if_pos begins]
      have head : (scanned 0 u).1.head? = u.head? := by
        conv_rhs => rw [← split]
        exact (List.head?_append_of_ne_nil _ found).symm
      by_cases zero : u.head? = some 48
      · have isRoot : radix 0 u = 8 := by
          unfold radix
          rw [if_neg (not_not.mpr rfl), if_neg noPrefix, if_pos zero]
        rw [isRoot]
        exact IsRadix.octal _ (head.trans zero)
      · have isRoot : radix 0 u = 10 := by
          unfold radix
          rw [if_neg (not_not.mpr rfl), if_neg noPrefix, if_neg zero]
        rw [isRoot]
        exact IsRadix.decimal _ fun isZero => zero (head.symm.trans isZero)
    · have isRoot : radix base u = base := if_pos known
      rw [isRoot]
      exact IsRadix.given _ _ known

/-! ## White space and the sign -/

/-- A sign, and what follows it. -/
theorem sign_spec (s : List UInt8) :
    ∃ sgn, s = sgn ++ (sign s).2 ∧ IsSign sgn (sign s).1 := by
  unfold sign
  split
  · exact ⟨[45], rfl, IsSign.minus⟩
  · exact ⟨[43], rfl, IsSign.plus⟩
  · exact ⟨[], rfl, IsSign.none⟩

/-- A number begins where the scan looks for it. -/
theorem Unsigned.sign_eq {blanks sgn : List UInt8}
    (number : Unsigned base u root digits rest)
    (spaces : ∀ b ∈ blanks, isspace b = true) (isSign : IsSign sgn negative) :
    sign ((blanks ++ (sgn ++ u)).dropWhile isspace) = (negative, u) := by
  rcases number.begins with ⟨c, w, rfl, notSpace, notPlus, notMinus⟩
  rw [List.dropWhile_append_of_pos spaces]
  cases isSign with
  | none =>
      rw [List.nil_append, List.dropWhile_cons_of_neg
        (Bool.eq_false_iff.mp notSpace)]
      unfold sign
      split
      · next isMinus => exact absurd (List.cons.inj isMinus).1 notMinus
      · next isPlus => exact absurd (List.cons.inj isPlus).1 notPlus
      · rfl
  | plus => rfl
  | minus => rfl

theorem subject_eq (base : Nat) (s : List UInt8) :
    subject base s =
      ⟨(sign (s.dropWhile isspace)).1,
        radix base (sign (s.dropWhile isspace)).2,
        (scanned base (sign (s.dropWhile isspace)).2).1,
        (scanned base (sign (s.dropWhile isspace)).2).2⟩ := rfl

/-- What is found is a number. -/
theorem numeral_form (found : numeral base s = some (v, rest)) :
    Form base s v rest := by
  unfold numeral at found
  rw [subject_eq] at found
  dsimp only at found
  split_ifs at found with nothing
  rcases found with ⟨rfl, rfl⟩
  rcases sign_spec (s.dropWhile isspace) with ⟨sgn, split, isSign⟩
  refine ⟨s.takeWhile isspace, sgn, _, _, _, _, ?_,
    fun b member => List.mem_takeWhile_imp member, isSign,
    scanned_unsigned nothing, rfl⟩
  rw [← split]
  exact List.takeWhile_append_dropWhile.symm

/-- Every number begins with digits that are found, and they reach as far. -/
theorem Form.numeral (form : Form base s v rest) :
    ∃ v' rest', numeral base s = some (v', rest') ∧
      rest'.length ≤ rest.length ∧
      (rest'.length = rest.length → v = v' ∧ rest = rest') := by
  rcases form.written with
    ⟨blanks, sgn, u, root, digits, negative, isText, spaces, isSign, number,
      isValue⟩
  have reaches := number.reaches
  have isSubject : subject base s = ⟨negative, radix base u,
      (scanned base u).1, (scanned base u).2⟩ := by
    rw [subject_eq, isText, number.sign_eq spaces isSign]
  refine ⟨signed negative (digitsValue (radix base u) (scanned base u).1),
    (scanned base u).2, ?_, reaches.shorter, fun same => ?_⟩
  · unfold NumberForm.numeral
    rw [isSubject]
    exact if_neg reaches.nonempty
  · rcases reaches.same same with ⟨rfl, rfl, isRest⟩
    exact ⟨isValue, isRest⟩

/-- The scan finds the longest number. -/
theorem numeral_iff :
    Numeral base s v rest ↔ numeral base s = some (v, rest) := by
  constructor
  · rintro ⟨form, longest⟩
    rcases form.numeral with ⟨v', rest', found, shorter, same⟩
    have length := longest v' rest' (numeral_form found)
    rcases same (Nat.le_antisymm shorter length) with ⟨rfl, rfl⟩
    exact found
  · intro found
    refine ⟨numeral_form found, fun v' rest' form => ?_⟩
    rcases form.numeral with ⟨w, tail, same, shorter, _⟩
    rw [found] at same
    rcases same with ⟨rfl, rfl⟩
    exact shorter

end Libcperciva.Util.NumberForm
