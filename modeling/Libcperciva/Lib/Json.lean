import Mathlib.Data.List.Basic
import Mathlib.Tactic.Common

/-!
# JSON

The grammar of RFC 8259, on bytes.  It relates what is left of a text before
and after an item.  What a string and a number look like is a parameter: a
scanner that is less strict reads the same grammar with other strings and
numbers.
-/

namespace Libcperciva.Lib.Json

variable {s t r x : List UInt8} {c : UInt8}

/-! ## White space -/

/-- `' '`, `'\t'`, `'\n'` and `'\r'`. -/
def IsWs (c : UInt8) : Prop := c = 0x20 ∨ c = 0x09 ∨ c = 0x0A ∨ c = 0x0D

instance : DecidablePred IsWs := fun _ => inferInstanceAs (Decidable (_ ∨ _))

/-- Some white space, or none. -/
inductive Ws : List UInt8 → List UInt8 → Prop where
  | none {s : List UInt8} : Ws s s
  | more {c : UInt8} {s r : List UInt8} (isWs : IsWs c) (rest : Ws s r) :
      Ws (c :: s) r

theorem Ws.suffix (ws : Ws s r) : r <:+ s := by
  induction ws with
  | none => exact List.suffix_refl _
  | more _ _ ih => exact ih.trans (List.suffix_cons _ _)

/-! ## Values -/

/-- Strings, from behind the opening quote to behind the closing one, and
numbers. -/
structure Lexis where
  string : List UInt8 → List UInt8 → Prop
  number : List UInt8 → Prop

/-- What is derived: a value; the values of an array or the members of an
object, from the first one to behind the closing bracket. -/
inductive Kind where
  | value
  | elements
  | members

/-- `"false"`, `"null"` and `"true"`. -/
def literals : List (List UInt8) :=
  [[102, 97, 108, 115, 101], [110, 117, 108, 108], [116, 114, 117, 101]]

/-- The items of the grammar. -/
inductive Derives (L : Lexis) :
    Kind → List UInt8 → List UInt8 → Prop where
  | literal {v r : List UInt8} (isLiteral : v ∈ literals) :
      Derives L .value (v ++ r) r
  | string {s r : List UInt8} (isString : L.string s r) :
      Derives L .value (34 :: s) r
  | number {v r : List UInt8} (isNumber : L.number v) :
      Derives L .value (v ++ r) r
  | emptyArray {s r : List UInt8} (ws : Ws s (93 :: r)) :
      Derives L .value (91 :: s) r
  | array {s t r : List UInt8} (ws : Ws s t)
      (elements : Derives L .elements t r) : Derives L .value (91 :: s) r
  | emptyObject {s r : List UInt8} (ws : Ws s (125 :: r)) :
      Derives L .value (123 :: s) r
  | object {s t r : List UInt8} (ws : Ws s t)
      (members : Derives L .members t r) : Derives L .value (123 :: s) r
  | lastElement {s t r : List UInt8} (value : Derives L .value s t)
      (close : Ws t (93 :: r)) : Derives L .elements s r
  | element {s t u v r : List UInt8} (value : Derives L .value s t)
      (comma : Ws t (44 :: u)) (ws : Ws u v)
      (rest : Derives L .elements v r) : Derives L .elements s r
  | lastMember {s t u v x r : List UInt8} (name : L.string s t)
      (colon : Ws t (58 :: u)) (ws : Ws u v) (value : Derives L .value v x)
      (close : Ws x (125 :: r)) : Derives L .members (34 :: s) r
  | member {s t u v x y z r : List UInt8} (name : L.string s t)
      (colon : Ws t (58 :: u)) (ws : Ws u v) (value : Derives L .value v x)
      (comma : Ws x (44 :: y)) (ws' : Ws y z)
      (rest : Derives L .members z r) : Derives L .members (34 :: s) r

/-- With more strings and numbers there are more items. -/
theorem Derives.mono {L L' : Lexis} {kind : Kind}
    (strings : ∀ s r, L.string s r → L'.string s r)
    (numbers : ∀ v, L.number v → L'.number v)
    (derives : Derives L kind s r) : Derives L' kind s r := by
  induction derives with
  | literal isLiteral => exact .literal isLiteral
  | string isString => exact .string (strings _ _ isString)
  | number isNumber => exact .number (numbers _ isNumber)
  | emptyArray ws => exact .emptyArray ws
  | array ws _ elements => exact .array ws elements
  | emptyObject ws => exact .emptyObject ws
  | object ws _ members => exact .object ws members
  | lastElement _ close value => exact .lastElement value close
  | element _ comma ws _ value rest => exact .element value comma ws rest
  | lastMember name colon ws _ close value =>
      exact .lastMember (strings _ _ name) colon ws value close
  | member name colon ws _ comma ws' _ value rest =>
      exact .member (strings _ _ name) colon ws value comma ws' rest

/-- What is left behind an item is the end of the text. -/
theorem Derives.suffix {L : Lexis} {kind : Kind}
    (strings : ∀ s r, L.string s r → r <:+ s)
    (derives : Derives L kind s r) : r <:+ s := by
  have behind : ∀ {s r : List UInt8} {c : UInt8}, Ws s (c :: r) → r <:+ s :=
    fun ws => (List.suffix_cons _ _).trans ws.suffix
  have inside : ∀ {s r : List UInt8} {c : UInt8}, r <:+ s → r <:+ c :: s :=
    fun suffix => suffix.trans (List.suffix_cons _ _)
  induction derives with
  | literal _ => exact List.suffix_append _ _
  | string isString => exact inside (strings _ _ isString)
  | number _ => exact List.suffix_append _ _
  | emptyArray ws => exact inside (behind ws)
  | array ws _ ih => exact inside (ih.trans ws.suffix)
  | emptyObject ws => exact inside (behind ws)
  | object ws _ ih => exact inside (ih.trans ws.suffix)
  | lastElement _ close ih => exact (behind close).trans ih
  | element _ comma ws _ ih ihRest =>
      exact ihRest.trans (ws.suffix.trans ((behind comma).trans ih))
  | lastMember name colon ws _ close ih =>
      exact inside ((behind close).trans (ih.trans (ws.suffix.trans
        ((behind colon).trans (strings _ _ name)))))
  | member name colon ws _ comma ws' _ ih ihRest =>
      exact inside (ihRest.trans (ws'.suffix.trans ((behind comma).trans
        (ih.trans (ws.suffix.trans
          ((behind colon).trans (strings _ _ name)))))))

/-! ## Strings of RFC 8259 -/

/-- What a character stands for that is escaped with a backslash. -/
def unescape (c : UInt8) : Option UInt8 :=
  if c = 34 then some 34
  else if c = 92 then some 92
  else if c = 47 then some 47
  else if c = 98 then some 0x08
  else if c = 102 then some 0x0C
  else if c = 110 then some 0x0A
  else if c = 114 then some 0x0D
  else if c = 116 then some 0x09
  else none

/-- A hexadecimal digit. -/
def IsHex (c : UInt8) : Prop :=
  48 ≤ c ∧ c ≤ 57 ∨ 65 ≤ c ∧ c ≤ 70 ∨ 97 ≤ c ∧ c ≤ 102

/-- The rest of a string, and the bytes for which it stands unless it has a
`\u` escape.  The characters that stand for themselves are those of `text`. -/
inductive Chars (text : List UInt8 → Prop) :
    List UInt8 → Option (List UInt8) → List UInt8 → Prop where
  | close {r : List UInt8} : Chars text (34 :: r) (some []) r
  | plain {bytes s r : List UInt8} {name : Option (List UInt8)}
      (isText : text bytes) (rest : Chars text s name r) :
      Chars text (bytes ++ s) (name.map (bytes ++ ·)) r
  | escape {e c : UInt8} {s r : List UInt8} {name : Option (List UInt8)}
      (isEscape : unescape e = some c) (rest : Chars text s name r) :
      Chars text (92 :: e :: s) (name.map (c :: ·)) r
  | unicode {h1 h2 h3 h4 : UInt8} {s r : List UInt8}
      {name : Option (List UInt8)} (hex : ∀ h ∈ [h1, h2, h3, h4], IsHex h)
      (rest : Chars text s name r) :
      Chars text (92 :: 117 :: h1 :: h2 :: h3 :: h4 :: s) none r

theorem Chars.suffix {text : List UInt8 → Prop}
    {name : Option (List UInt8)} (chars : Chars text s name r) :
    r <:+ s := by
  induction chars with
  | close => exact List.suffix_cons _ _
  | plain _ _ ih => exact ih.trans (List.suffix_append _ _)
  | @escape e _ _ _ _ _ _ ih => exact ih.trans ⟨[92, e], rfl⟩
  | @unicode h1 h2 h3 h4 _ _ _ _ _ ih =>
      exact ih.trans ⟨[92, 117, h1, h2, h3, h4], rfl⟩

/-- A byte that needs no escape: not a control character, `'"'` or `'\\'`. -/
def Unescaped (c : UInt8) : Prop := 32 ≤ c ∧ c ≠ 34 ∧ c ≠ 92

instance : DecidablePred Unescaped := fun _ =>
  inferInstanceAs (Decidable (_ ∧ _))

/-- The bytes of the characters that need no escape. -/
def PlainText (text : List UInt8 → Prop) : Prop :=
  ∀ bytes, text bytes → ∀ c ∈ bytes, Unescaped c

/-- A byte behind the first one of a character. -/
def IsTail (c : UInt8) : Prop := 0x80 ≤ c ∧ c ≤ 0xBF

/-- The characters that need no escape, in UTF-8. -/
inductive Utf8 : List UInt8 → Prop where
  | one {a : UInt8} (unescaped : Unescaped a) (ascii : a ≤ 0x7F) : Utf8 [a]
  | two {a b : UInt8} (first : 0xC2 ≤ a ∧ a ≤ 0xDF) (second : IsTail b) :
      Utf8 [a, b]
  | three {a b c : UInt8} (first : 0xE0 ≤ a ∧ a ≤ 0xEF) (second : IsTail b)
      (third : IsTail c) (shortest : a = 0xE0 → 0xA0 ≤ b)
      (noSurrogate : a = 0xED → b ≤ 0x9F) : Utf8 [a, b, c]
  | four {a b c d : UInt8} (first : 0xF0 ≤ a ∧ a ≤ 0xF4)
      (second : IsTail b) (third : IsTail c) (fourth : IsTail d)
      (shortest : a = 0xF0 → 0x90 ≤ b) (inRange : a = 0xF4 → b ≤ 0x8F) :
      Utf8 [a, b, c, d]

theorem unescaped_of_high (high : 0x80 ≤ c) : Unescaped c := by
  have large : 128 ≤ c.toNat := UInt8.le_iff_toNat_le.mp high
  refine ⟨UInt8.le_iff_toNat_le.mpr (by change 32 ≤ c.toNat; omega), ?_, ?_⟩
  · rintro rfl
    exact absurd large (by decide)
  · rintro rfl
    exact absurd large (by decide)

theorem utf8_plainText : PlainText Utf8 := by
  intro bytes isText c member
  have higher : ∀ {a b : UInt8}, (0x80 : UInt8) ≤ a → a ≤ b → 0x80 ≤ b :=
    fun high le => UInt8.le_trans high le
  cases isText with
  | one unescaped _ =>
      rw [List.mem_singleton.mp member]
      exact unescaped
  | two first second =>
      simp only [List.mem_cons, List.not_mem_nil, or_false] at member
      rcases member with rfl | rfl
      · exact unescaped_of_high (higher (by decide) first.1)
      · exact unescaped_of_high second.1
  | three first second third _ _ =>
      simp only [List.mem_cons, List.not_mem_nil, or_false] at member
      rcases member with rfl | rfl | rfl
      · exact unescaped_of_high (higher (by decide) first.1)
      · exact unescaped_of_high second.1
      · exact unescaped_of_high third.1
  | four first second third fourth _ _ =>
      simp only [List.mem_cons, List.not_mem_nil, or_false] at member
      rcases member with rfl | rfl | rfl | rfl
      · exact unescaped_of_high (higher (by decide) first.1)
      · exact unescaped_of_high second.1
      · exact unescaped_of_high third.1
      · exact unescaped_of_high fourth.1

/-! ## Numbers of RFC 8259 -/

def IsDigit (c : UInt8) : Prop := 48 ≤ c ∧ c ≤ 57

instance : DecidablePred IsDigit := fun _ =>
  inferInstanceAs (Decidable (_ ∧ _))

/-- One digit or more. -/
def IsDigits (v : List UInt8) : Prop := v ≠ [] ∧ ∀ c ∈ v, IsDigit c

/-- `int`: no leading zeros. -/
def IsInt (v : List UInt8) : Prop :=
  v = [48] ∨ IsDigits v ∧ v.head? ≠ some 48

/-- `frac`, or nothing. -/
def IsFrac (v : List UInt8) : Prop :=
  v = [] ∨ ∃ digits, IsDigits digits ∧ v = 46 :: digits

/-- `exp`, or nothing. -/
def IsExp (v : List UInt8) : Prop :=
  v = [] ∨ ∃ e sign digits, (e = 101 ∨ e = 69) ∧
    (sign = [] ∨ sign = [43] ∨ sign = [45]) ∧ IsDigits digits ∧
    v = e :: (sign ++ digits)

/-- `number`. -/
def IsNumber (v : List UInt8) : Prop :=
  ∃ sign int frac exp, (sign = [] ∨ sign = [45]) ∧ IsInt int ∧
    IsFrac frac ∧ IsExp exp ∧ v = sign ++ int ++ frac ++ exp

/-! ## Objects -/

/-- RFC 8259, for characters that are written with some bytes. -/
def rfc8259 (text : List UInt8 → Prop) : Lexis where
  string s r := ∃ name, Chars text s name r
  number := IsNumber

/-- The name/value pairs of an object, from the first one to behind the
closing bracket: the bytes of the name, and where the value begins. -/
inductive Pairs (text : List UInt8 → Prop) : List UInt8 →
    List (Option (List UInt8) × List UInt8) → List UInt8 → Prop where
  | last {s t u v x r : List UInt8} {name : Option (List UInt8)}
      (isName : Chars text s name t) (colon : Ws t (58 :: u)) (ws : Ws u v)
      (value : Derives (rfc8259 text) .value v x) (close : Ws x (125 :: r)) :
      Pairs text (34 :: s) [(name, v)] r
  | more {s t u v x y z r : List UInt8} {name : Option (List UInt8)}
      {pairs : List (Option (List UInt8) × List UInt8)}
      (isName : Chars text s name t) (colon : Ws t (58 :: u)) (ws : Ws u v)
      (value : Derives (rfc8259 text) .value v x) (comma : Ws x (44 :: y))
      (ws' : Ws y z) (rest : Pairs text z pairs r) :
      Pairs text (34 :: s) ((name, v) :: pairs) r

variable {text : List UInt8 → Prop}

/-- The members of an object are its name/value pairs. -/
theorem members_iff_pairs :
    Derives (rfc8259 text) .members s r ↔ ∃ pairs, Pairs text s pairs r := by
  constructor
  · intro members
    generalize isMembers : Kind.members = kind at members
    induction members with
    | lastMember name colon ws value close _ =>
        obtain ⟨name, isName⟩ := name
        exact ⟨_, .last isName colon ws value close⟩
    | member name colon ws value comma ws' _ _ ih =>
        obtain ⟨name, isName⟩ := name
        obtain ⟨pairs, rest⟩ := ih rfl
        exact ⟨_, .more isName colon ws value comma ws' rest⟩
    | _ => cases isMembers
  · rintro ⟨pairs, isPairs⟩
    induction isPairs with
    | last isName colon ws value close =>
        exact .lastMember ⟨_, isName⟩ colon ws value close
    | more isName colon ws value comma ws' _ ih =>
        exact .member ⟨_, isName⟩ colon ws value comma ws' ih

/-- White space and an object, with its name/value pairs. -/
def Object (text : List UInt8 → Prop) (s : List UInt8)
    (pairs : List (Option (List UInt8) × List UInt8)) (r : List UInt8) :
    Prop :=
  ∃ t, Ws s (123 :: t) ∧
    (Ws t (125 :: r) ∧ pairs = [] ∨ ∃ u, Ws t u ∧ Pairs text u pairs r)

/-- An object is a value that begins with `'{'`. -/
theorem object_iff_value :
    (∃ pairs, Object text s pairs r) ↔
      ∃ t, Ws s (123 :: t) ∧
        Derives (rfc8259 text) .value (123 :: t) r := by
  constructor
  · rintro ⟨pairs, t, ws, ⟨close, rfl⟩ | ⟨u, ws', isPairs⟩⟩
    · exact ⟨t, ws, .emptyObject close⟩
    · exact ⟨t, ws, .object ws' (members_iff_pairs.mpr ⟨pairs, isPairs⟩)⟩
  · rintro ⟨t, ws, value⟩
    generalize isText : 123 :: t = text' at value
    cases value with
    | literal isLiteral =>
        simp only [literals, List.mem_cons, List.not_mem_nil, or_false]
          at isLiteral
        rcases isLiteral with rfl | rfl | rfl
        all_goals cases isText
    | string => cases isText
    | number isNumber =>
        obtain ⟨sign, int, frac, exp, isSign, isInt, -, -, rfl⟩ := isNumber
        rcases isSign with rfl | rfl
        · rcases isInt with rfl | ⟨⟨nonempty, digits⟩, -⟩
          · cases isText
          · cases int with
            | nil => exact absurd rfl nonempty
            | cons d int =>
                obtain rfl := (List.cons.inj isText).1
                exact absurd (digits 123 List.mem_cons_self).2 (by decide)
        · cases isText
    | emptyArray => cases isText
    | array => cases isText
    | emptyObject close =>
        obtain rfl := (List.cons.inj isText).2
        exact ⟨[], t, ws, Or.inl ⟨close, rfl⟩⟩
    | object ws' members =>
        obtain rfl := (List.cons.inj isText).2
        obtain ⟨pairs, isPairs⟩ := members_iff_pairs.mp members
        exact ⟨pairs, t, ws, Or.inr ⟨_, ws', isPairs⟩⟩

theorem Pairs.close {pairs : List (Option (List UInt8) × List UInt8)}
    (isPairs : Pairs text s pairs r) : 125 ∈ s := by
  have strings : ∀ s r, (rfc8259 text).string s r → r <:+ s := by
    rintro s r ⟨name, chars⟩
    exact chars.suffix
  induction isPairs with
  | last isName colon ws value close =>
      have last := close.suffix.subset List.mem_cons_self
      have inValue := (value.suffix strings).subset last
      have inColon := colon.suffix.subset
        (List.mem_cons_of_mem _ (ws.suffix.subset inValue))
      exact List.mem_cons_of_mem _ (isName.suffix.subset inColon)
  | more isName colon ws value comma ws' _ ih =>
      have inComma := comma.suffix.subset
        (List.mem_cons_of_mem _ (ws'.suffix.subset ih))
      have inValue := (value.suffix strings).subset inComma
      have inColon := colon.suffix.subset
        (List.mem_cons_of_mem _ (ws.suffix.subset inValue))
      exact List.mem_cons_of_mem _ (isName.suffix.subset inColon)

/-- An object has a closing bracket. -/
theorem Object.close {pairs : List (Option (List UInt8) × List UInt8)}
    (object : Object text s pairs r) : 125 ∈ s := by
  obtain ⟨t, ws, ⟨close, -⟩ | ⟨u, ws', isPairs⟩⟩ := object
  · exact ws.suffix.subset (List.mem_cons_of_mem _
      (close.suffix.subset List.mem_cons_self))
  · exact ws.suffix.subset (List.mem_cons_of_mem _
      (ws'.suffix.subset isPairs.close))

end Libcperciva.Lib.Json
