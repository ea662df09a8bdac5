import Libcperciva.Util.JsonMatch

/-!
# Finding a value, `json_find`

It stops at the first pair with the wanted name.  Nothing behind the name and
its colon is looked at then, except that the buffer must not end there; a pair
before it is skipped if it belongs to the loose grammar.
-/

namespace Libcperciva.Util.JsonFind

open Libcperciva.Lib.Json
open Libcperciva.Util.JsonModel
open Libcperciva.Util.JsonSkip
open Libcperciva.Util.JsonValue
open Libcperciva.Util.JsonMatch

variable {s t r key buf : List UInt8} {c ch : UInt8} {turns : Nat}

/-! ## Scanning for a character -/

theorem scan_of_ws (ws : Ws s (ch :: r)) (visible : ¬ IsWs ch) :
    scan s ch = some r := by
  unfold scan
  rw [skipWs_of_ws ws visible]
  exact if_neg (not_not_intro rfl)

theorem scan_of_other (ws : Ws s (c :: r)) (visible : ¬ IsWs c)
    (other : c ≠ ch) : scan s ch = none := by
  unfold scan
  rw [skipWs_of_ws ws visible]
  exact if_pos other

theorem ws_of_scan (found : scan s ch = some r) : Ws s (ch :: r) := by
  unfold scan at found
  cases isNext : skipWs s with
  | nil =>
      rw [isNext] at found
      cases found
  | cons c t =>
      rw [isNext] at found
      dsimp only at found
      split_ifs at found with other
      obtain rfl := not_not.mp other
      obtain rfl := Option.some.inj found
      exact ws_of_skipWs isNext

theorem scan_suffix (found : scan s ch = some r) :
    r <:+ s ∧ r.length < s.length := by
  have suffix := (ws_of_scan found).suffix
  exact ⟨(List.suffix_cons _ _).trans suffix, suffix.length_le⟩

/-! ## The pairs that are reached -/

/-- Behind `'{'` or `','`, a pair with the key for its name is reached: pairs
of the loose grammar stand before it, and something behind its colon. -/
inductive Reaches (key : List UInt8) : List UInt8 → Prop where
  | here {s t u v w : List UInt8} {c : UInt8} {name : Option (List UInt8)}
      (quote : Ws s (34 :: t)) (isName : NameChars t name u)
      (isKey : nameIs name key = true) (colon : Ws u (58 :: v))
      (ws : Ws v (c :: w)) (visible : ¬ IsWs c) : Reaches key s
  | later {s t u v w x y : List UInt8} {name : Option (List UInt8)}
      (quote : Ws s (34 :: t)) (isName : NameChars t name u)
      (colon : Ws u (58 :: v)) (ws : Ws v w)
      (value : Derives loose .value w x) (comma : Ws x (44 :: y))
      (rest : Reaches key y) : Reaches key s

/-- A turn of the loop that reads a name and its colon. -/
theorem findPair_name {u v : List UInt8} {name : Option (List UInt8)}
    (noNul : 0 ∉ key) (quote : Ws s (34 :: t)) (isName : NameChars t name u)
    (colon : Ws u (58 :: v)) (turns : Nat) :
    findPair (turns + 1) s (key ++ [0]) =
      if nameIs name key then .ok (skipWs v)
      else skipValue (enoughTurns (skipWs v)) (skipWs v) >>= fun buf =>
        match scan buf 44 with
        | none => .ok []
        | some buf => findPair turns buf (key ++ [0]) := by
  conv => lhs; unfold findPair
  rw [scan_of_ws quote (by decide)]
  dsimp only
  unfold matchStr
  rw [matchChars_of_name isName noNul, Bool.true_and]
  dsimp only [bind, Except.bind]
  rewrite [scan_of_ws colon (by decide)]
  rfl

/-- A turn of the loop that skips a value. -/
theorem findPair_skip {u v w x : List UInt8} {name : Option (List UInt8)}
    (noNul : 0 ∉ key) (quote : Ws s (34 :: t)) (isName : NameChars t name u)
    (other : nameIs name key = false) (colon : Ws u (58 :: v)) (ws : Ws v w)
    (value : Derives loose .value w x) (stops : Stops x) (turns : Nat) :
    findPair (turns + 1) s (key ++ [0]) =
      match scan x 44 with
      | none => .ok []
      | some buf => findPair turns buf (key ++ [0]) := by
  have skipped := derives_isSkipped value stops (enoughTurns w)
    (Nat.le_refl _)
  rw [findPair_name noNul quote isName colon, other, if_neg (by decide),
    skipWs_of_derives ws value, skipped]
  rfl

/-- The loop ends in the buffer, and before `end` only if it reaches a pair. -/
theorem findPair_spec (noNul : 0 ∉ key) (enough : s.length < turns) :
    ∃ r, findPair turns s (key ++ [0]) = .ok r ∧ r <:+ s ∧
      (r = [] ∨ r.length + 3 ≤ s.length ∧ Reaches key s) := by
  induction turns generalizing s with
  | zero => exact absurd enough (Nat.not_lt_zero _)
  | succ turns ih =>
      have atEnd : ∀ result : Except JsonFault (List UInt8),
          result = .ok [] → ∃ r, result = .ok r ∧ r <:+ s ∧
            (r = [] ∨ r.length + 3 ≤ s.length ∧ Reaches key s) :=
        fun _ isEnd => ⟨[], isEnd, List.nil_suffix, Or.inl rfl⟩
      cases isQuote : scan s 34 with
      | none =>
          refine atEnd _ ?_
          unfold findPair
          rw [isQuote]
      | some t =>
          obtain ⟨quoteSuffix, quoteLength⟩ := scan_suffix isQuote
          obtain ⟨u, found, matched, nameSuffix, read⟩ :=
            matchChars_spec t noNul true
          cases isColon : scan u 58 with
          | none =>
              refine atEnd _ ?_
              unfold findPair matchStr
              rw [isQuote]
              dsimp only
              rw [matched]
              dsimp only [bind, Except.bind]
              rw [isColon]
          | some v =>
              obtain ⟨colonSuffix, colonLength⟩ := scan_suffix isColon
              rcases read with none | ⟨nameLength, name, isName⟩
              · rw [none] at colonLength
                exact absurd colonLength (Nat.not_lt_zero _)
              have wsSuffix := skipWs_suffix v
              have wsLength := wsSuffix.length_le
              have inside : skipWs v <:+ s := wsSuffix.trans
                (colonSuffix.trans (nameSuffix.trans quoteSuffix))
              rw [findPair_name noNul (ws_of_scan isQuote) isName
                (ws_of_scan isColon)]
              split_ifs with isKey
              · refine ⟨skipWs v, rfl, inside, ?_⟩
                cases isNext : skipWs v with
                | nil => exact Or.inl rfl
                | cons c w =>
                    rw [isNext] at wsLength
                    refine Or.inr ⟨by omega, ?_⟩
                    exact .here (ws_of_scan isQuote) isName isKey
                      (ws_of_scan isColon) (ws_of_skipWs isNext)
                      (visible_of_skipWs isNext)
              · obtain ⟨x, result, skipped, -⟩ := (skips _).value (skipWs v)
                  (Nat.le_refl (enoughTurns (skipWs v)))
                have valueLength := skipped.suffix.length_le
                rw [result]
                dsimp only [bind, Except.bind]
                cases isComma : scan x 44 with
                | none => exact atEnd _ rfl
                | some y =>
                    obtain ⟨commaSuffix, commaLength⟩ := scan_suffix isComma
                    obtain ⟨r, resultRest, suffix, reached⟩ :=
                      ih (s := y) (by omega)
                    refine ⟨r, resultRest, suffix.trans (commaSuffix.trans
                      (skipped.suffix.trans inside)), ?_⟩
                    rcases reached with none | ⟨room, reaches⟩
                    · exact Or.inl none
                    · right
                      rcases skipped.item with near | value
                      · omega
                      · exact ⟨by omega, .later (ws_of_scan isQuote) isName
                          (ws_of_scan isColon) (skipWs_ws v) value
                          (ws_of_scan isComma) reaches⟩

/-- The loop stops at a pair that is reached, or before it. -/
theorem findPair_of_reaches (noNul : 0 ∉ key) (reaches : Reaches key s)
    (enough : s.length < turns) :
    ∃ c r, findPair turns s (key ++ [0]) = .ok (c :: r) := by
  induction reaches generalizing turns with
  | @here s t u v w c name quote isName isKey colon ws visible =>
      obtain ⟨turns, rfl⟩ := Nat.exists_eq_add_of_lt enough
      refine ⟨c, w, ?_⟩
      rw [findPair_name noNul quote isName colon, isKey, if_pos rfl,
        skipWs_of_ws ws visible]
  | @later s t u v w x y name quote isName colon ws value comma _ ih =>
      obtain ⟨turns, rfl⟩ := Nat.exists_eq_add_of_lt enough
      cases isKey : nameIs name key with
      | true =>
          obtain ⟨c, w, rfl, visible⟩ := derives_head value
          refine ⟨c, w, ?_⟩
          rw [findPair_name noNul quote isName colon, isKey, if_pos rfl,
            skipWs_of_ws ws visible]
      | false =>
          have shorter : y.length < s.length + turns := by
            have quoteLength := quote.suffix.length_le
            have nameLength := nameChars_length isName
            have colonLength := colon.suffix.length_le
            have wsLength := ws.suffix.length_le
            have valueLength := derives_length value
            have commaLength := comma.suffix.length_le
            simp only [List.length_cons] at *
            omega
          obtain ⟨c, r, result⟩ := ih shorter
          refine ⟨c, r, ?_⟩
          rw [findPair_skip noNul quote isName isKey colon ws value
            (stops_of_ws comma (by decide)), scan_of_ws comma (by decide)]
          exact result

/-! ## Every buffer -/

theorem jsonFind_eq (found : scan buf 123 = some s) :
    jsonFind buf (key ++ [0]) = findPair (s.length + 1) s (key ++ [0]) := by
  unfold jsonFind
  rw [found]

theorem jsonFind_none (missing : scan buf 123 = none) :
    jsonFind buf (key ++ [0]) = .ok [] := by
  unfold jsonFind
  rw [missing]

/-- **`json_find` is safe.**  For any bytes and any key it ends, reads no byte
outside of the buffer or behind the NUL of the key, and returns a place in the
buffer.  So does `skip_value`, which returns `end` or moves on. -/
theorem json_find_safe (buf key : List UInt8) (noNul : 0 ∉ key) :
    (∃ r, jsonFind buf (key ++ [0]) = .ok r ∧ r <:+ buf) ∧
      ∀ s turns, s ≠ [] → enoughTurns s ≤ turns →
        ∃ r, skipValue turns s = .ok r ∧ r <:+ s ∧
          (r = [] ∨ r.length < s.length) := by
  constructor
  · cases found : scan buf 123 with
    | none => exact ⟨[], jsonFind_none found, List.nil_suffix⟩
    | some s =>
        obtain ⟨r, result, suffix, -⟩ := findPair_spec noNul
          (Nat.lt_succ_self s.length)
        exact ⟨r, (jsonFind_eq found).trans result,
          suffix.trans (scan_suffix found).1⟩
  · intro s turns _ enough
    obtain ⟨r, result, skipped, moves⟩ := (skips turns).value s enough
    refine ⟨r, result, skipped.suffix, ?_⟩
    by_cases atEnd : r = []
    · exact Or.inl atEnd
    · exact Or.inr (moves atEnd)

/-- A buffer of three bytes, with a NUL. -/
theorem json_find_safe_three :
    (∃ r, jsonFind [123, 34, 0] ([97] ++ [0]) = .ok r ∧
        r <:+ [123, 34, 0]) ∧
      ∀ s turns, s ≠ [] → enoughTurns s ≤ turns →
        ∃ r, skipValue turns s = .ok r ∧ r <:+ s ∧
          (r = [] ∨ r.length < s.length) :=
  json_find_safe [123, 34, 0] [97] (by decide)

/-! ## Valid objects -/

variable {text : List UInt8 → Prop}
  {pairs : List (Option (List UInt8) × List UInt8)}

/-- The place of the value of the first pair with a name; `end` if there is no
such pair. -/
def valueOf (pairs : List (Option (List UInt8) × List UInt8))
    (key : List UInt8) : List UInt8 :=
  match pairs.find? fun pair => pair.1 = some key with
  | some pair => pair.2
  | none => []

theorem valueOf_cons_self (key v : List UInt8) :
    valueOf ((some key, v) :: pairs) key = v := by
  simp [valueOf]

theorem valueOf_cons_of_ne {name : Option (List UInt8)}
    (other : name ≠ some key) (v : List UInt8) :
    valueOf ((name, v) :: pairs) key = valueOf pairs key := by
  simp [valueOf, other]

/-- A pair of an object: its value is returned or skipped. -/
theorem findPair_of_pair {u v w x : List UInt8}
    {name : Option (List UInt8)} (plain : PlainText text) (noNul : 0 ∉ key)
    (quote : Ws s (34 :: t)) (isName : Chars text t name u)
    (colon : Ws u (58 :: v)) (ws : Ws v w)
    (value : Derives (rfc8259 text) .value w x) (stops : Stops x)
    (turns : Nat) :
    findPair (turns + 1) s (key ++ [0]) =
      if name = some key then .ok w
      else
        match scan x 44 with
        | none => .ok []
        | some buf => findPair turns buf (key ++ [0]) := by
  have read := nameChars_of_chars plain isName
  have looseValue := loose_of_rfc8259 plain value
  have isKey := nameIs_of_chars plain isName noNul
  split_ifs with same
  · rw [findPair_name noNul quote read colon, if_pos (isKey.mpr same),
      skipWs_of_derives ws looseValue]
  · have other : nameIs name key = false :=
      Bool.eq_false_iff.mpr (mt isKey.mp same)
    rw [findPair_skip noNul quote read other colon ws looseValue stops]

/-- The pairs of an object, one after the other. -/
theorem findPair_of_pairs (plain : PlainText text) (noNul : 0 ∉ key)
    (isPairs : Pairs text t pairs r) (before : Ws s t)
    (enough : s.length < turns) :
    findPair turns s (key ++ [0]) = .ok (valueOf pairs key) := by
  induction isPairs generalizing s turns with
  | @last t u v w x r name isName colon ws value close =>
      obtain ⟨turns, rfl⟩ := Nat.exists_eq_add_of_lt enough
      have stops : Stops x := stops_of_ws close (by decide)
      rw [findPair_of_pair plain noNul before isName colon ws value stops]
      split_ifs with same
      · rw [same, valueOf_cons_self]
      · rw [scan_of_other close (by decide) (by decide),
          valueOf_cons_of_ne same]
        rfl
  | @more t u v w x y z r name pairs isName colon ws value comma ws' _ ih =>
      obtain ⟨turns, rfl⟩ := Nat.exists_eq_add_of_lt enough
      have stops : Stops x := stops_of_ws comma (by decide)
      rw [findPair_of_pair plain noNul before isName colon ws value stops]
      split_ifs with same
      · rw [same, valueOf_cons_self]
      · have shorter : y.length < s.length + turns := by
          have quoteLength := before.suffix.length_le
          have nameLength := isName.suffix.length_le
          have colonLength := colon.suffix.length_le
          have wsLength := ws.suffix.length_le
          have valueLength := derives_length (loose_of_rfc8259 plain value)
          have commaLength := comma.suffix.length_le
          simp only [List.length_cons] at *
          omega
        rw [scan_of_ws comma (by decide), valueOf_cons_of_ne same]
        exact ih ws' shorter

/-- **`json_find` on valid objects.**  It returns the place of the value of
the first pair with the wanted name, or `end` if no pair has that name. -/
theorem json_find_valid (plain : PlainText text)
    (object : Object text buf pairs r) (noNul : 0 ∉ key) :
    jsonFind buf (key ++ [0]) = .ok (valueOf pairs key) := by
  obtain ⟨s, ws, inside⟩ := object
  rw [jsonFind_eq (scan_of_ws ws (by decide))]
  rcases inside with ⟨close, rfl⟩ | ⟨t, ws', isPairs⟩
  · unfold findPair
    rw [scan_of_other close (by decide) (by decide)]
    rfl
  · exact findPair_of_pairs plain noNul isPairs ws' (Nat.lt_succ_self _)

/-- The text `{"/":1}`. -/
def nested : List UInt8 := [123, 34, 47, 34, 58, 49, 125]

/-- The text `{"b": [{"/":1}], "\/":2}`. -/
def nesting : List UInt8 :=
  [123, 34, 98, 34, 58, 32, 91] ++ nested ++
    [93, 44, 32, 34, 92, 47, 34, 58, 50, 125]

/-- The value with the key `"/"` is 2, which the nested object does not
hide. -/
theorem json_find_valid_one :
    jsonFind nesting ([47] ++ [0]) = .ok [50, 125] := by
  have isDigit : ∀ d : UInt8, IsDigit d → d ≠ 48 → IsNumber [d] := by
    intro d digit notZero
    refine ⟨[], [d], [], [], Or.inl rfl, Or.inr ⟨⟨List.cons_ne_nil _ _, ?_⟩,
      ?_⟩, Or.inl rfl, Or.inl rfl, rfl⟩
    · exact List.forall_mem_singleton.mpr digit
    · exact fun isZero => notZero (Option.some.inj isZero)
  obtain ⟨rest, isRest⟩ : ∃ rest : List UInt8,
      rest = [34, 92, 47, 34, 58, 50, 125] := ⟨_, rfl⟩
  -- The nested object is a value, and so is the array around it.
  have inner : Derives (rfc8259 Utf8) .value
      (nested ++ 93 :: 44 :: 32 :: rest) (93 :: 44 :: 32 :: rest) := by
    have isName : Chars Utf8 (47 :: 34 :: 58 :: 49 :: 125 :: 93 :: 44 :: 32 ::
        rest) (some [47]) (58 :: 49 :: 125 :: 93 :: 44 :: 32 :: rest) :=
      @Chars.plain Utf8 [47] _ _ _ (.one (by decide) (by decide)) .close
    have value : Derives (rfc8259 Utf8) .value
        ([49] ++ 125 :: 93 :: 44 :: 32 :: rest)
        (125 :: 93 :: 44 :: 32 :: rest) :=
      .number (isDigit 49 (by decide) (by decide))
    have object : Object Utf8 (nested ++ 93 :: 44 :: 32 :: rest) _
        (93 :: 44 :: 32 :: rest) :=
      ⟨_, .none, Or.inr ⟨_, .none, .last isName .none .none value .none⟩⟩
    obtain ⟨t, ws, isValue⟩ := object_iff_value.mp ⟨_, object⟩
    cases ws with
    | none => exact isValue
    | more isWs _ => exact absurd isWs (by decide)
  have array : Derives (rfc8259 Utf8) .value
      (91 :: (nested ++ 93 :: 44 :: 32 :: rest)) (44 :: 32 :: rest) :=
    .array .none (.lastElement inner .none)
  have first : Chars Utf8 (98 :: 34 :: 58 :: 32 :: 91 ::
      (nested ++ 93 :: 44 :: 32 :: rest)) (some [98])
      (58 :: 32 :: 91 :: (nested ++ 93 :: 44 :: 32 :: rest)) :=
    @Chars.plain Utf8 [98] _ _ _ (.one (by decide) (by decide)) .close
  have second : Chars Utf8 [92, 47, 34, 58, 50, 125] (some [47])
      [58, 50, 125] := @Chars.escape Utf8 47 47 _ _ _ rfl .close
  have two : Derives (rfc8259 Utf8) .value ([50] ++ [125]) [125] :=
    .number (isDigit 50 (by decide) (by decide))
  have pairs : Pairs Utf8 rest [(some [47], [50, 125])] [] := by
    rw [isRest]
    exact .last second .none .none two .none
  have space : Ws (32 :: rest) rest := .more (by decide) .none
  have object : Object Utf8 nesting
      [(some [98], 91 :: (nested ++ 93 :: 44 :: 32 :: rest)),
        (some [47], [50, 125])] [] := by
    refine ⟨_, .none, Or.inr ⟨_, .none, ?_⟩⟩
    rw [isRest] at *
    exact .more first .none (.more (by decide) .none) array .none space pairs
  rw [json_find_valid utf8_plainText object (by decide),
    valueOf_cons_of_ne (by decide), valueOf_cons_self]

/-! ## Invalid objects -/

/-- Behind white space and `'{'`, a pair with the key for its name is
reached. -/
def HasPair (key buf : List UInt8) : Prop :=
  ∃ s, Ws buf (123 :: s) ∧ Reaches key s

/-- `json_find` returns `end` if the buffer does not start with an object. -/
def MeetsClaim (key buf : List UInt8) : Prop :=
  (¬ ∃ pairs r, Object Utf8 buf pairs r) →
    jsonFind buf (key ++ [0]) = .ok []

/-- `json_find` returns `end` just if no pair is reached. -/
theorem jsonFind_end_iff (buf : List UInt8) (noNul : 0 ∉ key) :
    jsonFind buf (key ++ [0]) = .ok [] ↔ ¬ HasPair key buf := by
  cases found : scan buf 123 with
  | none =>
      refine iff_of_true (jsonFind_none found) ?_
      rintro ⟨s, ws, -⟩
      rw [scan_of_ws ws (by decide)] at found
      cases found
  | some s =>
      rw [jsonFind_eq found]
      constructor
      · rintro atEnd ⟨t, ws, reaches⟩
        rw [scan_of_ws ws (by decide)] at found
        obtain rfl := Option.some.inj found
        obtain ⟨c, r, result⟩ := findPair_of_reaches noNul reaches
          (Nat.lt_succ_self _)
        rw [atEnd] at result
        cases result
      · intro noPair
        obtain ⟨r, result, -, rfl | ⟨-, reaches⟩⟩ := findPair_spec noNul
          (Nat.lt_succ_self s.length)
        · exact result
        · exact absurd ⟨s, ws_of_scan found, reaches⟩ noPair

/-- **`json_find` on other buffers.**  It returns `end`, as documented, just if
no pair with the wanted name is reached before the buffer goes wrong. -/
theorem json_find_invalid (buf key : List UInt8) (noNul : 0 ∉ key) :
    MeetsClaim key buf ↔
      (∃ pairs r, Object Utf8 buf pairs r) ∨ ¬ HasPair key buf := by
  rw [← jsonFind_end_iff buf noNul]
  exact imp_iff_or_not.trans (by rw [not_not, or_comm])

/-- `{"b":1`, which is cut off, and the key `"a"`. -/
theorem json_find_invalid_other :
    MeetsClaim [97] [123, 34, 98, 34, 58, 49] ↔
      (∃ pairs r, Object Utf8 [123, 34, 98, 34, 58, 49] pairs r) ∨
        ¬ HasPair [97] [123, 34, 98, 34, 58, 49] :=
  json_find_invalid [123, 34, 98, 34, 58, 49] [97] (by decide)

/-- `{"a":1`, which is cut off, and the key `"a"`. -/
theorem json_find_cut_off :
    ¬ MeetsClaim [97] [123, 34, 97, 34, 58, 49] := by
  intro meets
  have noObject : ¬ ∃ pairs r, Object Utf8 [123, 34, 97, 34, 58, 49] pairs
      r := by
    rintro ⟨pairs, r, object⟩
    exact absurd object.close (by decide)
  have isName : NameChars [97, 34, 58, 49] (some [97]) [58, 49] :=
    @NameChars.plain 97 _ _ _ (by decide) (by decide) .close
  have reaches : Reaches [97] [34, 97, 34, 58, 49] :=
    .here .none isName (by decide) .none .none (by decide)
  exact (jsonFind_end_iff _ (by decide)).mp (meets noObject)
    ⟨_, .none, reaches⟩

end Libcperciva.Util.JsonFind
