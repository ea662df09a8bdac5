import Libcperciva.Util.JsonSkip

/-!
# Skipping values

With enough turns the three mutually recursive functions come to an end.  What
they skip then is an item of the loose grammar, or they are at most three bytes
before `end`; and they do skip each such item.
-/

namespace Libcperciva.Util.JsonValue

open Libcperciva.Lib.Json
open Libcperciva.Util.JsonModel
open Libcperciva.Util.JsonSkip

variable {s t r : List UInt8} {c : UInt8} {turns : Nat} {kind : Kind}

/-! ## Every value is skipped, or `end` is near -/

/-- Where an item was skipped. -/
structure Skipped (kind : Kind) (s r : List UInt8) : Prop where
  suffix : r <:+ s
  item : r.length < 4 ∨ Derives loose kind s r

theorem skipped_end (kind : Kind) (s : List UInt8) : Skipped kind s [] :=
  ⟨List.nil_suffix, Or.inl (by decide)⟩

/-- What the functions do with a number of turns. -/
structure Skips (turns : Nat) : Prop where
  value : ∀ s, 3 * s.length + 3 ≤ turns → ∃ r, skipValue turns s = .ok r ∧
    Skipped .value s r ∧ (r ≠ [] → r.length < s.length)
  array : ∀ s, 3 * s.length + 5 ≤ turns → ∃ r,
    skipArray turns (91 :: s) = .ok r ∧ Skipped .value (91 :: s) r ∧
      r.length ≤ s.length
  elements : ∀ s, 3 * s.length + 4 ≤ turns → ∃ r,
    skipElements turns s = .ok r ∧ Skipped .elements s r
  object : ∀ s, 3 * s.length + 5 ≤ turns → ∃ r,
    skipObject turns (123 :: s) = .ok r ∧ Skipped .value (123 :: s) r ∧
      r.length ≤ s.length
  members : ∀ s, 3 * s.length + 4 ≤ turns → ∃ r,
    skipMembers turns s = .ok r ∧ Skipped .members s r

theorem advance_cons (c : UInt8) (s : List UInt8) :
    advance 1 (c :: s) = .ok s := by
  have inside : 1 ≤ (c :: s).length := Nat.succ_pos s.length
  unfold advance
  rw [if_pos inside]
  rfl

/-- Behind an opening bracket: nothing, or a loop over what is inside. -/
theorem skip_opened {s : List UInt8} {opening closing : UInt8}
    {loop : List UInt8 → Except JsonFault (List UInt8)}
    (empty : ∀ r, Ws s (closing :: r) → Derives loose .value (opening :: s) r)
    (filled : ∀ t r, Ws s t → Derives loose kind t r →
      Derives loose .value (opening :: s) r)
    (runs : ∀ t, t.length ≤ s.length →
      ∃ r, loop t = .ok r ∧ Skipped kind t r) :
    ∃ r, (match skipWs s with
        | [] => Except.ok []
        | c :: buf => if c = closing then .ok buf else loop (c :: buf)) =
          .ok r ∧
      Skipped .value (opening :: s) r ∧ r.length ≤ s.length := by
  have suffix := skipWs_suffix s
  cases isNext : skipWs s with
  | nil => exact ⟨[], rfl, skipped_end _ _, Nat.zero_le _⟩
  | cons c buf =>
      have ws := ws_of_skipWs isNext
      rw [isNext] at suffix
      have inside := suffix.length_le
      dsimp only
      by_cases isEmpty : c = closing
      · subst isEmpty
        rw [if_pos rfl]
        refine ⟨buf, rfl, ⟨?_, Or.inr (empty buf ws)⟩, ?_⟩
        · exact (List.suffix_cons _ _).trans
            (suffix.trans (List.suffix_cons _ _))
        · exact Nat.le_of_succ_le inside
      · rw [if_neg isEmpty]
        obtain ⟨r, result, skipped⟩ := runs (c :: buf) inside
        refine ⟨r, result, ⟨?_, ?_⟩, ?_⟩
        · exact skipped.suffix.trans (suffix.trans (List.suffix_cons _ _))
        · exact skipped.item.imp_right (filled _ r ws)
        · exact Nat.le_trans skipped.suffix.length_le inside

/-- Behind a value: the closing bracket, or a comma and the rest. -/
theorem skip_next {s t : List UInt8} {closing : UInt8} {found : Prop}
    {loop : List UInt8 → Except JsonFault (List UInt8)} (outer : t <:+ s)
    (item : t.length < 4 ∨ found)
    (last : ∀ r, found → Ws t (closing :: r) → Derives loose kind s r)
    (more : ∀ u v r, found → Ws t (44 :: u) → Ws u v →
      Derives loose kind v r → Derives loose kind s r)
    (runs : ∀ v, v.length < t.length →
      ∃ r, loop v = .ok r ∧ Skipped kind v r) :
    ∃ r, (match skipWs t with
        | [] => Except.ok []
        | c :: buf =>
            if c = closing then .ok buf
            else if c ≠ 44 then .ok []
            else loop (skipWs buf)) = .ok r ∧
      Skipped kind s r := by
  have suffix := skipWs_suffix t
  cases isNext : skipWs t with
  | nil => exact ⟨[], rfl, skipped_end _ _⟩
  | cons c buf =>
      have ws := ws_of_skipWs isNext
      rw [isNext] at suffix
      have behind : buf <:+ t := (List.suffix_cons _ _).trans suffix
      have shorter : buf.length < t.length := suffix.length_le
      dsimp only
      by_cases isLast : c = closing
      · subst isLast
        rw [if_pos rfl]
        refine ⟨buf, rfl, behind.trans outer, ?_⟩
        rcases item with near | found
        · exact Or.inl (Nat.lt_trans shorter near)
        · exact Or.inr (last buf found ws)
      rw [if_neg isLast]
      by_cases isComma : c = 44
      · subst isComma
        rw [if_neg (not_not_intro rfl)]
        have wsNext := skipWs_suffix buf
        obtain ⟨r, result, rest⟩ := runs (skipWs buf)
          (Nat.lt_of_le_of_lt wsNext.length_le shorter)
        have inside := rest.suffix.trans (wsNext.trans behind)
        refine ⟨r, result, inside.trans outer, ?_⟩
        rcases item with near | found
        · exact Or.inl (Nat.lt_of_le_of_lt inside.length_le near)
        · exact rest.item.imp_right (more buf _ r found ws (skipWs_ws buf))
      · rw [if_pos isComma]
        exact ⟨[], rfl, skipped_end _ _⟩

theorem skipArray_step (skips : Skips turns)
    (enough : 3 * s.length + 5 ≤ turns + 1) :
    ∃ r, skipArray (turns + 1) (91 :: s) = .ok r ∧
      Skipped .value (91 :: s) r ∧ r.length ≤ s.length := by
  unfold skipArray
  rw [advance_cons]
  refine skip_opened (fun r => .emptyArray) (fun t r => .array) ?_
  intro t inside
  exact skips.elements t (by omega)

theorem skipObject_step (skips : Skips turns)
    (enough : 3 * s.length + 5 ≤ turns + 1) :
    ∃ r, skipObject (turns + 1) (123 :: s) = .ok r ∧
      Skipped .value (123 :: s) r ∧ r.length ≤ s.length := by
  unfold skipObject
  rw [advance_cons]
  refine skip_opened (fun r => .emptyObject) (fun t r => .object) ?_
  intro t inside
  exact skips.members t (by omega)

theorem skipElements_step (skips : Skips turns)
    (enough : 3 * s.length + 4 ≤ turns + 1) :
    ∃ r, skipElements (turns + 1) s = .ok r ∧ Skipped .elements s r := by
  obtain ⟨t, result, value, -⟩ := skips.value s (by omega)
  have inside := value.suffix.length_le
  unfold skipElements
  rw [result]
  refine skip_next value.suffix value.item
    (fun r found => .lastElement found)
    (fun u v r found => .element found) ?_
  intro v shorter
  exact skips.elements v (by omega)

theorem skipMembers_step (skips : Skips turns)
    (enough : 3 * s.length + 4 ≤ turns + 1) :
    ∃ r, skipMembers (turns + 1) s = .ok r ∧ Skipped .members s r := by
  unfold skipMembers
  cases s with
  | nil => exact ⟨[], rfl, skipped_end _ _⟩
  | cons c name =>
      dsimp only
      by_cases isQuote : c = 34
      swap
      · rw [if_pos isQuote]
        exact ⟨[], rfl, skipped_end _ _⟩
      subst isQuote
      rw [if_neg (not_not_intro rfl), skipString_eq]
      obtain ⟨nameSuffix, nameItem⟩ := skipChars_spec name
      dsimp only [bind, Except.bind]
      have colonSuffix := skipWs_suffix (skipChars name)
      cases isColon : skipWs (skipChars name) with
      | nil => exact ⟨[], rfl, skipped_end _ _⟩
      | cons c u =>
          have colon := ws_of_skipWs isColon
          rw [isColon] at colonSuffix
          dsimp only
          by_cases isColonChar : c = 58
          swap
          · rw [if_pos isColonChar]
            exact ⟨[], rfl, skipped_end _ _⟩
          subst isColonChar
          rw [if_neg (not_not_intro rfl)]
          have valueSuffix := skipWs_suffix u
          have before : skipWs u <:+ 34 :: name :=
            valueSuffix.trans ((List.suffix_cons _ _).trans
              (colonSuffix.trans (nameSuffix.trans (List.suffix_cons _ _))))
          have lengths := valueSuffix.length_le
          have lengths' := colonSuffix.length_le
          have lengths'' := nameSuffix.length_le
          simp only [List.length_cons] at enough lengths'
          obtain ⟨x, result, value, -⟩ := skips.value (skipWs u) (by omega)
          have inside := value.suffix.length_le
          rw [result]
          have item : x.length < 4 ∨ (LooseChars name (skipChars name) ∧
              Derives loose .value (skipWs u) x) := by
            rcases nameItem with near | isName
            · exact Or.inl (by omega)
            · exact value.item.imp_right fun found => ⟨isName, found⟩
          refine skip_next (value.suffix.trans before) item
            (fun r found => .lastMember found.1 colon (skipWs_ws u) found.2)
            (fun y z r found =>
              .member found.1 colon (skipWs_ws u) found.2) ?_
          intro v shorter
          exact skips.members v (by omega)

theorem skipValue_step (skips : Skips turns)
    (enough : 3 * s.length + 3 ≤ turns + 1) :
    ∃ r, skipValue (turns + 1) s = .ok r ∧ Skipped .value s r ∧
      (r ≠ [] → r.length < s.length) := by
  unfold skipValue
  cases s with
  | nil => exact ⟨[], rfl, skipped_end _ _, fun more => absurd rfl more⟩
  | cons c s =>
      have length : (c :: s).length = s.length + 1 := rfl
      dsimp only
      split_ifs with isLiteral isString isArray isObject isNumber
      · refine ⟨_, rfl, ?_⟩
        rcases skipLiteral_spec (c :: s) with atEnd | ⟨v, member, split⟩
        · rw [atEnd]
          exact ⟨skipped_end _ _, fun more => absurd rfl more⟩
        · have nonempty : 0 < v.length := by
            simp only [literals, List.mem_cons, List.not_mem_nil, or_false]
              at member
            rcases member with rfl | rfl | rfl
            all_goals decide
          have total := congrArg List.length split
          rw [List.length_append] at total
          refine ⟨⟨⟨v, split.symm⟩, Or.inr ?_⟩, fun _ => by omega⟩
          have derives : Derives loose .value (v ++ skipLiteral (c :: s))
            (skipLiteral (c :: s)) := .literal member
          rwa [← split] at derives
      · subst isString
        rw [skipString_eq]
        obtain ⟨suffix, item⟩ := skipChars_spec s
        have inside := suffix.length_le
        exact ⟨_, rfl, ⟨suffix.trans (List.suffix_cons _ _),
          item.imp_right .string⟩, fun _ => by omega⟩
      · subst isArray
        obtain ⟨r, result, skipped, inside⟩ := skips.array s (by omega)
        exact ⟨r, result, skipped, fun _ => by omega⟩
      · subst isObject
        obtain ⟨r, result, skipped, inside⟩ := skips.object s (by omega)
        exact ⟨r, result, skipped, fun _ => by omega⟩
      · obtain ⟨v, split, numbers, -⟩ := skipNumber_spec (c :: s)
        have nonempty : v ≠ [] := by
          rintro rfl
          have same : skipNumber (c :: s) = skipNumber s := by
            rw [skipNumber, if_neg]
            rintro (isNul | other)
            · exact isNumber.1 isNul
            · exact other isNumber.2
          obtain ⟨v, splitRest, -⟩ := skipNumber_spec s
          have total := congrArg List.length split
          have totalRest := congrArg List.length splitRest
          rw [List.length_append] at total totalRest
          rw [same] at total
          simp only [List.length_nil] at total
          omega
        have total := congrArg List.length split
        rw [List.length_append] at total
        have positive := List.length_pos_iff.mpr nonempty
        refine ⟨_, rfl, ⟨⟨v, split.symm⟩, Or.inr ?_⟩, fun _ => by omega⟩
        have derives : Derives loose .value (v ++ skipNumber (c :: s))
          (skipNumber (c :: s)) := .number ⟨nonempty, numbers⟩
        rwa [← split] at derives
      · exact ⟨[], rfl, skipped_end _ _, fun more => absurd rfl more⟩

/-- Each turn does its part. -/
theorem skips (turns : Nat) : Skips turns := by
  induction turns with
  | zero =>
      constructor
      all_goals
        intro s enough
        omega
  | succ turns ih =>
      exact ⟨fun _ enough => skipValue_step ih enough,
        fun _ enough => skipArray_step ih enough,
        fun _ enough => skipElements_step ih enough,
        fun _ enough => skipObject_step ih enough,
        fun _ enough => skipMembers_step ih enough⟩

/-! ## Every item of the loose grammar is skipped -/

theorem looseChars_length (chars : LooseChars s r) :
    r.length < s.length := by
  induction chars with
  | close => exact Nat.lt_succ_self _
  | plain _ _ _ ih => exact Nat.lt_succ_of_lt ih
  | escape _ _ ih => exact Nat.lt_succ_of_lt (Nat.lt_succ_of_lt ih)
  | unicode _ ih =>
      simp only [List.length_cons]
      omega

theorem literal_head {v : List UInt8} (isLiteral : v ∈ literals) :
    ∃ c v', v = c :: v' ∧ (c = 102 ∨ c = 110 ∨ c = 116) := by
  simp only [literals, List.mem_cons, List.not_mem_nil, or_false]
    at isLiteral
  rcases isLiteral with rfl | rfl | rfl
  · exact ⟨102, _, rfl, Or.inl rfl⟩
  · exact ⟨110, _, rfl, Or.inr (Or.inl rfl)⟩
  · exact ⟨116, _, rfl, Or.inr (Or.inr rfl)⟩

/-- Something is skipped. -/
theorem derives_length (derives : Derives loose kind s r) :
    r.length < s.length := by
  induction derives with
  | literal isLiteral =>
      obtain ⟨c, v, rfl, -⟩ := literal_head isLiteral
      rw [List.length_append, List.length_cons]
      omega
  | string isString => exact Nat.lt_succ_of_lt (looseChars_length isString)
  | number isNumber =>
      have positive := List.length_pos_iff.mpr isNumber.1
      rw [List.length_append]
      omega
  | emptyArray ws => exact Nat.lt_succ_of_lt ws.suffix.length_le
  | array ws _ ih =>
      exact Nat.lt_succ_of_lt (Nat.lt_of_lt_of_le ih ws.suffix.length_le)
  | emptyObject ws => exact Nat.lt_succ_of_lt ws.suffix.length_le
  | object ws _ ih =>
      exact Nat.lt_succ_of_lt (Nat.lt_of_lt_of_le ih ws.suffix.length_le)
  | lastElement _ close ih =>
      exact Nat.lt_trans close.suffix.length_le ih
  | element _ comma ws _ ih ihRest =>
      have inside := comma.suffix.length_le
      have insideNext := ws.suffix.length_le
      rw [List.length_cons] at inside
      omega
  | lastMember name colon ws _ close ih =>
      have nameLength := looseChars_length name
      have colonLength := colon.suffix.length_le
      have wsLength := ws.suffix.length_le
      have closeLength := close.suffix.length_le
      simp only [List.length_cons] at *
      omega
  | member name colon ws _ comma ws' _ ih ihRest =>
      have nameLength := looseChars_length name
      have colonLength := colon.suffix.length_le
      have wsLength := ws.suffix.length_le
      have commaLength := comma.suffix.length_le
      have wsLength' := ws'.suffix.length_le
      simp only [List.length_cons] at *
      omega

/-- A value or an item in brackets does not begin with white space. -/
theorem derives_head (derives : Derives loose kind s r) :
    ∃ c s', s = c :: s' ∧ ¬ IsWs c := by
  induction derives with
  | literal isLiteral =>
      obtain ⟨c, v, rfl, isHead⟩ := literal_head isLiteral
      refine ⟨c, _, rfl, ?_⟩
      rcases isHead with rfl | rfl | rfl
      all_goals decide
  | string _ => exact ⟨34, _, rfl, by decide⟩
  | @number v r isNumber =>
      obtain ⟨nonempty, numbers⟩ := isNumber
      cases v with
      | nil => exact absurd rfl nonempty
      | cons c v =>
          refine ⟨c, _, rfl, ?_⟩
          exact (numchar_plain (numbers c List.mem_cons_self)).1
  | emptyArray _ => exact ⟨91, _, rfl, by decide⟩
  | array _ _ _ => exact ⟨91, _, rfl, by decide⟩
  | emptyObject _ => exact ⟨123, _, rfl, by decide⟩
  | object _ _ _ => exact ⟨123, _, rfl, by decide⟩
  | lastElement _ _ ih => exact ih
  | element _ _ _ _ ih _ => exact ih
  | lastMember _ _ _ _ _ _ => exact ⟨34, _, rfl, by decide⟩
  | member _ _ _ _ _ _ _ _ _ => exact ⟨34, _, rfl, by decide⟩

/-- Elements and members do not begin with a closing bracket. -/
theorem value_head {v : List UInt8} (value : Derives loose .value (c :: v) r) :
    c ≠ 93 := by
  generalize isText : c :: v = text at value
  cases value with
  | literal isLiteral =>
      obtain ⟨d, v, rfl, isHead⟩ := literal_head isLiteral
      obtain rfl := (List.cons.inj isText).1
      rcases isHead with rfl | rfl | rfl
      all_goals decide
  | @number v r isNumber =>
      obtain ⟨nonempty, numbers⟩ := isNumber
      cases v with
      | nil => exact absurd rfl nonempty
      | cons d v =>
          obtain rfl := (List.cons.inj isText).1
          exact (numchar_plain (numbers c List.mem_cons_self)).2.1
  | _ =>
      obtain rfl := (List.cons.inj isText).1
      decide

theorem elements_head {v : List UInt8}
    (elements : Derives loose .elements (c :: v) r) : c ≠ 93 := by
  cases elements with
  | lastElement value _ => exact value_head value
  | element value _ _ _ => exact value_head value

theorem members_head {v : List UInt8}
    (members : Derives loose .members (c :: v) r) : c ≠ 125 := by
  cases members with
  | lastMember _ _ _ _ _ => decide
  | member _ _ _ _ _ _ _ => decide

theorem skipWs_of_derives (ws : Ws t s) (derives : Derives loose kind s r) :
    skipWs t = s := by
  obtain ⟨c, s, rfl, visible⟩ := derives_head derives
  exact skipWs_of_ws ws visible

/-- An item is skipped by the function for its kind. -/
def IsSkipped : Kind → List UInt8 → List UInt8 → Prop
  | .value, s, r => Stops r → ∀ turns, 3 * s.length + 3 ≤ turns →
      skipValue turns s = .ok r
  | .elements, s, r => ∀ turns, 3 * s.length + 4 ≤ turns →
      skipElements turns s = .ok r
  | .members, s, r => ∀ turns, 3 * s.length + 4 ≤ turns →
      skipMembers turns s = .ok r

/-- The turn that reads a value, and the one of its brackets. -/
theorem skipValue_array (turns : Nat) (s : List UInt8) :
    skipValue (turns + 2) (91 :: s) =
      match skipWs s with
      | [] => .ok []
      | c :: buf =>
          if c = 93 then .ok buf else skipElements turns (c :: buf) := by
  unfold skipValue
  dsimp only
  rw [if_neg (by decide), if_neg (by decide), if_pos rfl]
  unfold skipArray
  rw [advance_cons]
  rfl

theorem skipValue_object (turns : Nat) (s : List UInt8) :
    skipValue (turns + 2) (123 :: s) =
      match skipWs s with
      | [] => .ok []
      | c :: buf =>
          if c = 125 then .ok buf else skipMembers turns (c :: buf) := by
  unfold skipValue
  dsimp only
  rw [if_neg (by decide), if_neg (by decide), if_neg (by decide), if_pos rfl]
  unfold skipObject
  rw [advance_cons]
  rfl

/-- Behind a member's opening quote: its name, colon and value. -/
theorem skipMembers_value {u v x : List UInt8} (turns : Nat)
    (name : LooseChars s t) (colon : Ws t (58 :: u)) (ws : Ws u v)
    (value : Derives loose .value v x)
    (skipped : skipValue turns v = .ok x) :
    skipMembers (turns + 1) (34 :: s) =
      match skipWs x with
      | [] => .ok []
      | c :: buf =>
          if c = 125 then .ok buf
          else if c ≠ 44 then .ok []
          else skipMembers turns (skipWs buf) := by
  conv => lhs; unfold skipMembers
  dsimp only
  rw [if_neg (not_not_intro rfl), skipString_eq, skipChars_of_loose name]
  dsimp only [bind, Except.bind]
  rw [skipWs_of_ws colon (by decide)]
  dsimp only
  rewrite [if_neg (not_not_intro rfl), skipWs_of_derives ws value, skipped]
  rfl

theorem derives_isSkipped (derives : Derives loose kind s r) :
    IsSkipped kind s r := by
  induction derives with
  | @literal v r isLiteral =>
      intro _ turns enough
      obtain ⟨c, v', split, isHead⟩ := literal_head isLiteral
      obtain ⟨turns, rfl⟩ := Nat.exists_eq_add_of_le' (Nat.le_of_add_left_le
        enough : 1 ≤ turns)
      have whole : v ++ r = c :: (v' ++ r) := by rw [split]; rfl
      unfold skipValue
      rw [whole]
      dsimp only
      rw [if_pos isHead, ← whole, skipLiteral_eq isLiteral]
  | string isString =>
      intro _ turns enough
      obtain ⟨turns, rfl⟩ := Nat.exists_eq_add_of_le' (Nat.le_of_add_left_le
        enough : 1 ≤ turns)
      unfold skipValue
      dsimp only
      rw [if_neg (by decide), if_pos rfl, skipString_eq,
        skipChars_of_loose isString]
  | @number v r isNumber =>
      intro stops turns enough
      obtain ⟨nonempty, numbers⟩ := isNumber
      obtain ⟨turns, rfl⟩ := Nat.exists_eq_add_of_le' (Nat.le_of_add_left_le
        enough : 1 ≤ turns)
      cases v with
      | nil => exact absurd rfl nonempty
      | cons c v =>
          have isNumchar := numbers c List.mem_cons_self
          obtain ⟨-, -, noLiteral, noString, noArray, noObject⟩ :=
            numchar_plain isNumchar
          have skipped := skipNumber_eq numbers stops
          rw [List.cons_append] at skipped ⊢
          unfold skipValue
          dsimp only
          rw [if_neg noLiteral, if_neg noString, if_neg noArray,
            if_neg noObject, if_pos ⟨numchar_ne_zero isNumchar, isNumchar⟩,
            skipped]
  | @emptyArray s r ws =>
      intro _ turns enough
      rw [List.length_cons] at enough
      obtain ⟨turns, rfl⟩ := Nat.exists_eq_add_of_le' (by omega : 2 ≤ turns)
      rw [skipValue_array, skipWs_of_ws ws (by decide)]
      exact if_pos rfl
  | @array s t r ws elements ih =>
      intro _ turns enough
      rw [List.length_cons] at enough
      have inside := ws.suffix.length_le
      obtain ⟨turns, rfl⟩ := Nat.exists_eq_add_of_le' (by omega : 2 ≤ turns)
      obtain ⟨c, t, rfl, -⟩ := derives_head elements
      have notEmpty : c ≠ 93 := elements_head elements
      rw [skipValue_array, skipWs_of_derives ws elements]
      exact (if_neg notEmpty).trans (ih turns (by omega))
  | @emptyObject s r ws =>
      intro _ turns enough
      rw [List.length_cons] at enough
      obtain ⟨turns, rfl⟩ := Nat.exists_eq_add_of_le' (by omega : 2 ≤ turns)
      rw [skipValue_object, skipWs_of_ws ws (by decide)]
      exact if_pos rfl
  | @object s t r ws members ih =>
      intro _ turns enough
      rw [List.length_cons] at enough
      have inside := ws.suffix.length_le
      obtain ⟨turns, rfl⟩ := Nat.exists_eq_add_of_le' (by omega : 2 ≤ turns)
      obtain ⟨c, t, rfl, -⟩ := derives_head members
      have notEmpty : c ≠ 125 := members_head members
      rw [skipValue_object, skipWs_of_derives ws members]
      exact (if_neg notEmpty).trans (ih turns (by omega))
  | @lastElement s t r value close ih =>
      intro turns enough
      obtain ⟨turns, rfl⟩ := Nat.exists_eq_add_of_le' (by omega : 1 ≤ turns)
      have stops : Stops t := stops_of_ws close (by decide)
      unfold skipElements
      rw [ih stops turns (by omega)]
      dsimp only [bind, Except.bind]
      rw [skipWs_of_ws close (by decide)]
      exact if_pos rfl
  | @element s t u v r value comma ws rest ih ihRest =>
      intro turns enough
      obtain ⟨turns, rfl⟩ := Nat.exists_eq_add_of_le' (by omega : 1 ≤ turns)
      have stops : Stops t := stops_of_ws comma (by decide)
      have shorter := derives_length value
      have inside := comma.suffix.length_le
      have insideNext := ws.suffix.length_le
      rw [List.length_cons] at inside
      unfold skipElements
      rw [ih stops turns (by omega)]
      dsimp only [bind, Except.bind]
      rw [skipWs_of_ws comma (by decide)]
      dsimp only
      rw [if_neg (by decide), if_neg (not_not_intro rfl),
        skipWs_of_derives ws rest]
      exact ihRest turns (by omega)
  | @lastMember s t u v x r name colon ws value close ih =>
      intro turns enough
      obtain ⟨turns, rfl⟩ := Nat.exists_eq_add_of_le' (by omega : 1 ≤ turns)
      have nameLength := looseChars_length name
      have colonLength := colon.suffix.length_le
      have wsLength := ws.suffix.length_le
      simp only [List.length_cons] at enough colonLength
      have stops : Stops x := stops_of_ws close (by decide)
      rw [skipMembers_value turns name colon ws value
        (ih stops turns (by omega)), skipWs_of_ws close (by decide)]
      exact if_pos rfl
  | @member s t u v x y z r name colon ws value comma ws' rest ih ihRest =>
      intro turns enough
      obtain ⟨turns, rfl⟩ := Nat.exists_eq_add_of_le' (by omega : 1 ≤ turns)
      have nameLength := looseChars_length name
      have colonLength := colon.suffix.length_le
      have wsLength := ws.suffix.length_le
      have valueLength := derives_length value
      have commaLength := comma.suffix.length_le
      have wsLength' := ws'.suffix.length_le
      simp only [List.length_cons] at enough colonLength commaLength
      have stops : Stops x := stops_of_ws comma (by decide)
      rw [skipMembers_value turns name colon ws value
        (ih stops turns (by omega)), skipWs_of_ws comma (by decide)]
      dsimp only
      rw [if_neg (by decide), if_neg (not_not_intro rfl),
        skipWs_of_derives ws' rest]
      exact ihRest turns (by omega)

end Libcperciva.Util.JsonValue
