import Libcperciva.Lib.Json
import Libcperciva.Util.JsonModel
import Mathlib.Data.Bool.AllAny

/-!
# What `skip_value` skips

It reads the grammar of JSON, but takes any bytes and escapes for characters of
a string, and any run of the characters of numbers for a number.  Where there
is no such value, it returns `end`, or a pointer to the last three bytes if a
`\u` is cut off there.
-/

namespace Libcperciva.Util.JsonSkip

open Libcperciva.Lib.Json
open Libcperciva.Util.JsonModel

variable {s t r x : List UInt8} {c : UInt8} {turns : Nat}

/-! ## White space -/

theorem skipWs_cons_ws (isWs : IsWs c) (s : List UInt8) :
    skipWs (c :: s) = skipWs s := by
  rw [skipWs, if_neg]
  rintro ⟨noTab, noNewline, noReturn, noSpace⟩
  rcases isWs with space | tab | newline | ret
  · exact noSpace space
  · exact noTab tab
  · exact noNewline newline
  · exact noReturn ret

theorem skipWs_cons_visible (visible : ¬ IsWs c) (s : List UInt8) :
    skipWs (c :: s) = c :: s := by
  rw [skipWs, if_pos]
  refine ⟨?_, ?_, ?_, ?_⟩
  · exact fun tab => visible (Or.inr (Or.inl tab))
  · exact fun newline => visible (Or.inr (Or.inr (Or.inl newline)))
  · exact fun ret => visible (Or.inr (Or.inr (Or.inr ret)))
  · exact fun space => visible (Or.inl space)

theorem skipWs_ws (s : List UInt8) : Ws s (skipWs s) := by
  induction s with
  | nil => exact .none
  | cons c s ih =>
      by_cases isWs : IsWs c
      · rw [skipWs_cons_ws isWs]
        exact .more isWs ih
      · rw [skipWs_cons_visible isWs]
        exact .none

/-- White space that is passed does not matter. -/
theorem skipWs_eq (ws : Ws s r) : skipWs s = skipWs r := by
  induction ws with
  | none => rfl
  | more isWs _ ih => rw [skipWs_cons_ws isWs, ih]

theorem skipWs_of_ws (ws : Ws s (c :: r)) (visible : ¬ IsWs c) :
    skipWs s = c :: r := by
  rw [skipWs_eq ws, skipWs_cons_visible visible]

/-- What is not white space follows. -/
theorem visible_of_skipWs (skipped : skipWs s = c :: r) : ¬ IsWs c := by
  induction s with
  | nil => cases skipped
  | cons d s ih =>
      by_cases isWs : IsWs d
      · rw [skipWs_cons_ws isWs] at skipped
        exact ih skipped
      · rw [skipWs_cons_visible isWs] at skipped
        exact (List.cons.inj skipped).1 ▸ isWs

theorem skipWs_suffix (s : List UInt8) : skipWs s <:+ s := (skipWs_ws s).suffix

theorem ws_of_skipWs (skipped : skipWs s = c :: r) : Ws s (c :: r) :=
  skipped ▸ skipWs_ws s

/-! ## Strings and numbers -/

/-- The strings that are skipped, from behind the opening quote on. -/
inductive LooseChars : List UInt8 → List UInt8 → Prop where
  | close {r : List UInt8} : LooseChars (34 :: r) r
  | plain {c : UInt8} {s r : List UInt8} (noQuote : c ≠ 34)
      (noEscape : c ≠ 92) (rest : LooseChars s r) : LooseChars (c :: s) r
  | escape {e : UInt8} {s r : List UInt8} (noUnicode : e ≠ 117)
      (rest : LooseChars s r) : LooseChars (92 :: e :: s) r
  | unicode {a b c d : UInt8} {s r : List UInt8} (rest : LooseChars s r) :
      LooseChars (92 :: 117 :: a :: b :: c :: d :: s) r

/-- The strings and numbers that are skipped. -/
def loose : Lexis where
  string := LooseChars
  number v := v ≠ [] ∧ ∀ c ∈ v, c ∈ numchars

theorem skipChars_close (s : List UInt8) : skipChars (34 :: s) = s := by
  rw [skipChars.eq_def]
  exact if_pos rfl

theorem skipChars_plain (noQuote : c ≠ 34) (noEscape : c ≠ 92)
    (s : List UInt8) : skipChars (c :: s) = skipChars s := by
  rw [skipChars.eq_def]
  dsimp only
  rw [if_neg noQuote, if_neg noEscape]

theorem skipChars_escape (noUnicode : c ≠ 117) (s : List UInt8) :
    skipChars (92 :: c :: s) = skipChars s := by
  rw [skipChars.eq_def]
  dsimp only
  rw [if_neg (by decide), if_pos rfl, if_neg noUnicode]

theorem skipChars_unicode (a b c d : UInt8) (s : List UInt8) :
    skipChars (92 :: 117 :: a :: b :: c :: d :: s) = skipChars s := by
  rw [skipChars.eq_def]
  dsimp only
  rw [if_neg (by decide), if_pos rfl, if_pos rfl]

/-- A `\u` that is cut off. -/
theorem skipChars_cut (short : s.length < 4) :
    skipChars (92 :: 117 :: s) = s := by
  rw [skipChars.eq_def]
  dsimp only
  rw [if_neg (by decide), if_pos rfl, if_pos rfl]
  match s with
  | [] => rfl
  | [_] => rfl
  | [_, _] => rfl
  | [_, _, _] => rfl
  | _ :: _ :: _ :: _ :: s =>
      simp only [List.length_cons] at short
      omega

theorem skipChars_of_loose (chars : LooseChars s r) : skipChars s = r := by
  induction chars with
  | close => exact skipChars_close _
  | plain noQuote noEscape _ ih =>
      rw [skipChars_plain noQuote noEscape, ih]
  | escape noUnicode _ ih => rw [skipChars_escape noUnicode, ih]
  | unicode _ ih => rw [skipChars_unicode, ih]

theorem four_of_length (long : 4 ≤ s.length) :
    ∃ a b c d t, s = a :: b :: c :: d :: t := by
  match s, long with
  | a :: b :: c :: d :: t, _ => exact ⟨a, b, c, d, t, rfl⟩

/-- A string is skipped, or what is left are the last bytes. -/
theorem skipChars_spec (s : List UInt8) :
    skipChars s <:+ s ∧
      ((skipChars s).length < 4 ∨ LooseChars s (skipChars s)) := by
  induction length : s.length using Nat.strongRecOn generalizing s with
  | _ n ih =>
      subst length
      have shorter : ∀ buf : List UInt8, buf.length < s.length →
          skipChars buf <:+ buf ∧
            ((skipChars buf).length < 4 ∨ LooseChars buf (skipChars buf)) :=
        fun buf less => ih buf.length less buf rfl
      cases s with
      | nil => exact ⟨List.suffix_refl _, Or.inl (by decide)⟩
      | cons ch buf =>
          by_cases isQuote : ch = 34
          · subst isQuote
            rw [skipChars_close]
            exact ⟨List.suffix_cons _ _, Or.inr .close⟩
          by_cases isEscape : ch = 92
          · subst isEscape
            match buf with
            | [] => exact ⟨List.nil_suffix, Or.inl (by decide)⟩
            | e :: buf =>
                by_cases isUnicode : e = 117
                · subst isUnicode
                  by_cases short : buf.length < 4
                  · rw [skipChars_cut short]
                    exact ⟨⟨[92, 117], rfl⟩, Or.inl short⟩
                  · obtain ⟨a, b, c, d, rest, rfl⟩ :=
                      four_of_length (Nat.not_lt.mp short)
                    rw [skipChars_unicode]
                    obtain ⟨suffix, chars⟩ := shorter rest (by
                      simp only [List.length_cons]
                      omega)
                    exact ⟨suffix.trans ⟨[92, 117, a, b, c, d], rfl⟩,
                      chars.imp_right .unicode⟩
                · rw [skipChars_escape isUnicode]
                  obtain ⟨suffix, chars⟩ := shorter buf (by
                    simp only [List.length_cons]
                    omega)
                  exact ⟨suffix.trans ⟨[92, e], rfl⟩,
                    chars.imp_right (.escape isUnicode)⟩
          · rw [skipChars_plain isQuote isEscape]
            obtain ⟨suffix, chars⟩ := shorter buf (by
              simp only [List.length_cons]
              omega)
            exact ⟨suffix.trans (List.suffix_cons _ _),
              chars.imp_right (.plain isQuote isEscape)⟩

theorem skipString_eq (s : List UInt8) :
    skipString (34 :: s) = .ok (skipChars s) := by
  have inside : 1 ≤ (34 :: s).length := Nat.succ_pos s.length
  unfold skipString advance
  rw [if_pos inside]
  rfl

/-- No further character of a number follows. -/
def Stops (r : List UInt8) : Prop := ∀ c s, r = c :: s → c ∉ numchars

theorem stops_of_ws (ws : Ws s (c :: r)) (other : c ∉ numchars) :
    Stops s := by
  intro d t split
  cases ws with
  | none =>
      rw [← (List.cons.inj split).1]
      exact other
  | more isWs _ =>
      rw [← (List.cons.inj split).1]
      rcases isWs with rfl | rfl | rfl | rfl
      all_goals decide

theorem numchar_ne_zero (isNumchar : c ∈ numchars) : c ≠ 0 := by
  rintro rfl
  exact absurd isNumchar (by decide)

/-- The characters of numbers are not white space and begin nothing else. -/
theorem numchar_plain (isNumchar : c ∈ numchars) :
    ¬ IsWs c ∧ c ≠ 93 ∧ ¬ (c = 102 ∨ c = 110 ∨ c = 116) ∧ c ≠ 34 ∧ c ≠ 91 ∧
      c ≠ 123 := by
  have plain : ∀ c ∈ numchars, ¬ IsWs c ∧ c ≠ 93 ∧
      ¬ (c = 102 ∨ c = 110 ∨ c = 116) ∧ c ≠ 34 ∧ c ≠ 91 ∧ c ≠ 123 :=
    List.all_iff_forall_prop.mp (by decide)
  exact plain c isNumchar

theorem skipNumber_eq {v : List UInt8} (numbers : ∀ c ∈ v, c ∈ numchars)
    (stops : Stops r) : skipNumber (v ++ r) = r := by
  induction v with
  | nil =>
      cases r with
      | nil => rfl
      | cons c r =>
          rw [List.nil_append, skipNumber, if_pos (Or.inr (stops c r rfl))]
  | cons c v ih =>
      have isNumchar := numbers c List.mem_cons_self
      rw [List.cons_append, skipNumber, if_neg]
      · exact ih fun d member => numbers d (List.mem_cons_of_mem _ member)
      · rintro (isNul | other)
        · exact numchar_ne_zero isNumchar isNul
        · exact other isNumchar

/-- All characters of a number are skipped. -/
theorem skipNumber_spec (s : List UInt8) :
    ∃ v, s = v ++ skipNumber s ∧ (∀ c ∈ v, c ∈ numchars) ∧
      Stops (skipNumber s) := by
  induction s with
  | nil => exact ⟨[], rfl, fun _ none => absurd none List.not_mem_nil,
      fun _ _ none => nomatch none⟩
  | cons c s ih =>
      rw [skipNumber]
      split_ifs with stops
      · refine ⟨[], rfl, fun _ none => absurd none List.not_mem_nil, ?_⟩
        intro d t split isNumchar
        rw [← (List.cons.inj split).1] at isNumchar
        rcases stops with isNul | other
        · exact numchar_ne_zero isNumchar isNul
        · exact other isNumchar
      · obtain ⟨v, split, numbers, rest⟩ := ih
        refine ⟨c :: v, congrArg (c :: ·) split, ?_, rest⟩
        intro d member
        rcases List.mem_cons.mp member with rfl | later
        · exact not_not.mp fun other => stops (Or.inr other)
        · exact numbers d later

/-! ## Literals -/

theorem skipLiteral_eq {v : List UInt8} (isLiteral : v ∈ literals)
    (r : List UInt8) : skipLiteral (v ++ r) = r := by
  simp only [literals, List.mem_cons, List.not_mem_nil, or_false]
    at isLiteral
  unfold skipLiteral
  rcases isLiteral with rfl | rfl | rfl
  · simp
  · simp
  · simp

theorem skipLiteral_spec (s : List UInt8) :
    skipLiteral s = [] ∨ ∃ v ∈ literals, s = v ++ skipLiteral s := by
  unfold skipLiteral
  split_ifs with isFalse isNull isTrue
  · right
    refine ⟨_, List.mem_cons_self, ?_⟩
    rw [← isFalse.2, List.take_append_drop]
  · right
    refine ⟨_, List.mem_cons_of_mem _ List.mem_cons_self, ?_⟩
    rw [← isNull.2, List.take_append_drop]
  · right
    refine ⟨_, List.mem_cons_of_mem _
      (List.mem_cons_of_mem _ List.mem_cons_self), ?_⟩
    rw [← isTrue.2, List.take_append_drop]
  · exact Or.inl rfl

end Libcperciva.Util.JsonSkip
