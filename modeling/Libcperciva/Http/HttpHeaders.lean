import Libcperciva.Http.HttpOps

/-!
# The headers of a response

A block of headers ends where `"\r\n\r\n"` occurs first.  It consists of a
status line and header lines, and `gotheaders` finds these lines again: what
it makes of a block is a function of its lines.
-/

namespace Libcperciva.Http.HttpHeaders

open Libcperciva.Lib.Buffer
open Libcperciva.Lib.Lines
open Libcperciva.Util.Cstring
open Libcperciva.Netbuf.ReadModel
open Libcperciva.Http.HttpModel
open Libcperciva.Http.HttpOps

variable {H : HttpCookie} {buf line rest : List UInt8}
  {lines : List (List UInt8)} {pos i : Nat}

/-! ## The end of the headers -/

theorem crlf_ne_nil : crlf ≠ [] := List.cons_ne_nil _ _

theorem crlf_unbordered : Unbordered crlf := by
  intro k positive less
  have one : k = 1 := by
    change k < 2 at less
    omega
  subst one
  decide

/-- `"\r\n\r\n"`. -/
abbrev endOfHeaders : List UInt8 := crlf ++ crlf

theorem slice_eq_iff_occursAt :
    slice buf pos 4 = endOfHeaders ↔ OccursAt endOfHeaders buf pos :=
  eq_comm.trans List.prefix_iff_eq_take.symm

/-- The scan stops at the first end of headers from where it starts, or when
there are not enough bytes left for one. -/
theorem scanHeaders_spec (buf : List UInt8) (steps hepos : Nat)
    (enough : buf.length ≤ hepos + steps) :
    hepos ≤ scanHeaders buf steps hepos ∧
      (∀ j, hepos ≤ j → j < scanHeaders buf steps hepos →
        j + 4 ≤ buf.length ∧ ¬ OccursAt endOfHeaders buf j) ∧
      (scanHeaders buf steps hepos + 4 ≤ buf.length →
        OccursAt endOfHeaders buf (scanHeaders buf steps hepos)) := by
  induction steps generalizing hepos with
  | zero =>
      unfold scanHeaders
      refine ⟨Nat.le_refl _, fun j after before => ?_, fun fits => ?_⟩
      · omega
      · omega
  | succ steps ih =>
      unfold scanHeaders
      split_ifs with goesOn
      · obtain ⟨fits, different⟩ := goesOn
        obtain ⟨after, none, found⟩ := ih (hepos + 1) (by omega)
        refine ⟨by omega, fun j from_ before => ?_, found⟩
        by_cases isFirst : j = hepos
        · subst isFirst
          exact ⟨fits, fun occurs => different
            (slice_eq_iff_occursAt.mpr occurs)⟩
        · exact none j (by omega) before
      · refine ⟨Nat.le_refl _, fun j after before => ?_, fun fits => ?_⟩
        · omega
        · by_contra absent
          exact goesOn ⟨fits, fun occurs => absent
            (slice_eq_iff_occursAt.mp occurs)⟩

/-! ## Lines -/

/-- The blocks that are taken for headers consist of lines. -/
theorem exists_headerLines
    (occurs : OccursAt endOfHeaders buf pos) :
    ∃ line lines,
      buf.take (pos + 4) = joinLines crlf (line :: lines) ++ crlf ∧
        ∀ l ∈ line :: lines, Line crlf l := by
  refine exists_lines crlf_unbordered crlf_ne_nil ⟨buf.take pos, ?_⟩
  rw [List.take_add]
  exact congrArg _ (slice_eq_iff_occursAt.mpr occurs).symm

theorem length_le_joinLines (lines : List (List UInt8)) :
    lines.length ≤ (joinLines crlf lines).length := by
  induction lines with
  | nil => exact Nat.zero_le _
  | cons line lines ih =>
      unfold joinLines
      rw [List.length_append, List.length_append, List.length_cons]
      change lines.length + 1 ≤ line.length + 2 + _
      omega

theorem findeol_line (isLine : Line crlf line) :
    findeol (line ++ crlf ++ rest) = line.length :=
  indexOf_line isLine crlf_unbordered crlf_ne_nil

theorem findeol_crlf (rest : List UInt8) : findeol (crlf ++ rest) = 0 := by
  have empty : Line crlf [] := by
    intro i occurs
    have inside := occurs.inside crlf_ne_nil
    exact absurd inside (by simp [crlf])
  exact findeol_line empty

/-- A line is counted, and the next ones behind it. -/
theorem countLines_line {steps : Nat} (isLine : Line crlf line) :
    countLines (steps + 1) (line ++ crlf ++ rest) =
      countLines steps rest + 1 := by
  have found : findeol (line ++ crlf ++ rest) = line.length :=
    findeol_line isLine
  have drop : (line ++ crlf ++ rest).drop (line.length + 2) = rest :=
    List.drop_left' (by rw [List.length_append]; rfl)
  have notEmpty : line ++ crlf ++ rest ≠ [] := by simp [crlf]
  obtain ⟨c, cs, isCons⟩ := List.exists_cons_of_ne_nil notEmpty
  have counted : countLines (steps + 1) (c :: cs) =
      countLines steps ((c :: cs).drop (findeol (c :: cs) + 2)) + 1 := rfl
  rw [isCons] at found drop ⊢
  rw [counted, found, drop]

theorem countLines_lines {steps : Nat} (areLines : ∀ l ∈ lines, Line crlf l)
    (enough : lines.length + 1 ≤ steps) :
    countLines steps (joinLines crlf lines ++ crlf) = lines.length + 1 := by
  induction lines generalizing steps with
  | nil =>
      obtain ⟨steps, rfl⟩ := Nat.exists_eq_succ_of_ne_zero
        (Nat.ne_of_gt (Nat.lt_of_lt_of_le Nat.zero_lt_one enough))
      have empty : countLines steps [] = 0 := by
        cases steps <;> rfl
      change countLines (steps + 1) ([13, 10] : List UInt8) = 1
      unfold countLines
      have found : findeol [13, 10] = 0 := findeol_crlf []
      rw [found]
      exact congrArg (· + 1) empty
  | cons line lines ih =>
      obtain ⟨steps, rfl⟩ := Nat.exists_eq_succ_of_ne_zero
        (Nat.ne_of_gt (Nat.lt_of_lt_of_le (Nat.succ_pos _) enough))
      unfold joinLines
      rw [List.append_assoc,
        countLines_line (areLines line List.mem_cons_self),
        ih (fun l member => areLines l (List.mem_cons_of_mem line member))
          (Nat.le_of_succ_le_succ enough)]
      rfl

theorem sgetline_line (front rest : List UInt8) (isLine : Line crlf line) :
    sgetline (front ++ (line ++ crlf ++ rest)) front.length =
      .ok (line, front.length + (line.length + 2)) := by
  unfold sgetline
  dsimp only
  rw [List.drop_left, findeol_line isLine, List.append_assoc line,
    List.take_left, if_neg]
  rw [List.length_append, List.length_append, List.length_append]
  change ¬ ¬ line.length < front.length + (line.length + (2 + _)) - _
  omega

/-- The line contains NUL. -/
def HasNul (line : List UInt8) : Prop := strlen line < line.length

instance : DecidablePred HasNul := fun line =>
  inferInstanceAs (Decidable (strlen line < line.length))

theorem parseHeaders_lines (front rest : List UInt8)
    (areLines : ∀ l ∈ lines, Line crlf l) :
    parseHeaders (front ++ (joinLines crlf lines ++ rest)) lines.length
        front.length =
      .ok (if ∃ l ∈ lines, HasNul l then none else
        some (lines.map splitHeader,
          front.length + (joinLines crlf lines).length)) := by
  induction lines generalizing front with
  | nil =>
      rw [if_neg (fun ⟨l, member, _⟩ => List.not_mem_nil member)]
      rfl
  | cons line lines ih =>
      have isLine := areLines line List.mem_cons_self
      have tail := ih (front ++ (line ++ crlf))
        (fun l member => areLines l (List.mem_cons_of_mem line member))
      have frontLength : (front ++ (line ++ crlf)).length =
          front.length + (line.length + 2) := by
        rw [List.length_append, List.length_append]
        rfl
      have split : front ++ (joinLines crlf (line :: lines) ++ rest) =
          front ++ (line ++ crlf ++ (joinLines crlf lines ++ rest)) := by
        rw [joinLines_cons, List.append_assoc (line ++ crlf)]
      rw [frontLength, List.append_assoc front, ← split] at tail
      rw [List.length_cons]
      unfold parseHeaders
      rw [split, sgetline_line front _ isLine, ← split]
      change (if HasNul line then _ else _) = _
      by_cases hasNul : HasNul line
      · rw [if_pos hasNul, if_pos ⟨line, List.mem_cons_self, hasNul⟩]
      · rw [if_neg hasNul, tail]
        have same : (∃ l ∈ line :: lines, HasNul l) ↔
            ∃ l ∈ lines, HasNul l := by
          simp [hasNul]
        by_cases later : ∃ l ∈ lines, HasNul l
        · rw [if_pos later, if_pos (same.mpr later)]
          rfl
        · rw [if_neg later, if_neg (same.not.mpr later)]
          change Except.ok (some _) = Except.ok (some _)
          rw [joinLines_cons, List.length_append, List.length_append]
          simp only [List.map_cons, Nat.add_assoc]
          rfl

/-! ## `gotheaders` -/

/-- The status and the headers of a block, if it is accepted. -/
def parseBlock (overflow : Int → Int) (line : List UInt8)
    (lines : List (List UInt8)) : Option (Int × List HttpHeader) :=
  if HasNul line then none
  else
    match scanStatus overflow line with
    | none => none
    | some (major, _, status) =>
        if major ≠ 1 then none
        else if status < 100 ∨ status > 599 then none
        else if ∃ l ∈ lines, HasNul l then none
        else some (status, lines.map splitHeader)

theorem parseHead_lines (overflow : Int → Int)
    (areLines : ∀ l ∈ line :: lines, Line crlf l) :
    parseHead overflow (joinLines crlf (line :: lines) ++ crlf)
      lines.length = .ok (parseBlock overflow line lines) := by
  have split : joinLines crlf (line :: lines) ++ crlf =
      line ++ crlf ++ (joinLines crlf lines ++ crlf) := by
    rw [joinLines_cons, List.append_assoc]
  have first := sgetline_line [] (joinLines crlf lines ++ crlf)
    (areLines line List.mem_cons_self)
  have parsed := parseHeaders_lines (line ++ crlf) crlf
    (fun l member => areLines l (List.mem_cons_of_mem line member))
  have atLines : (line ++ crlf).length = 0 + (line.length + 2) := by
    rw [List.length_append, Nat.zero_add]
    rfl
  rw [atLines, ← split] at parsed
  rw [List.nil_append, ← split, List.length_nil] at first
  have total : 0 + (line.length + 2) + (joinLines crlf lines).length + 2 =
      (joinLines crlf (line :: lines) ++ crlf).length := by
    rw [split]
    simp only [List.length_append]
    change _ = line.length + 2 + (_ + 2)
    omega
  unfold parseHead parseBlock
  rw [first]
  change (if HasNul line then _ else _) = _
  by_cases hasNul : HasNul line
  · rw [if_pos hasNul, if_pos hasNul]
  · rw [if_neg hasNul, if_neg hasNul]
    cases scanStatus overflow line with
    | none => rfl
    | some numbers =>
        obtain ⟨major, minor, status⟩ := numbers
        dsimp only
        split_ifs with notOne outside laterNul
        · rfl
        · rfl
        · rw [parsed, if_pos laterNul]
          rfl
        · rw [parsed, if_neg laterNul]
          change (if ¬ 0 + (line.length + 2) + _ + 2 = _ then _ else _) = _
          rw [total, if_neg (not_not_intro rfl)]

/-- What `gotheaders` does with the lines of a block. -/
theorem gotheaders_lines (ready : Ready H.R) (env : CallEnv)
    {buflen : Nat} (inside : buflen ≤ (netbufReadPeek H.R).length)
    (head : (netbufReadPeek H.R).take buflen =
      joinLines crlf (line :: lines) ++ crlf)
    (areLines : ∀ l ∈ line :: lines, Line crlf l) :
    (gotheaders env buflen H = .ok .dies ∧
        ¬ (env.resHead = true ∧ env.headers = true)) ∨
      ∃ R, Ready R ∧
        netbufReadPeek R = (netbufReadPeek H.R).drop buflen ∧
        gotheaders env buflen H =
          match parseBlock env.overflow line lines with
          | none => fail
          | some (status, headers) =>
              handleHeaders { H with
                R
                resHead := joinLines crlf (line :: lines) ++ crlf
                hepos := 0
                res := { H.res with
                  status, nheaders := lines.length, headers } } := by
  obtain ⟨R, consumed, readyR, peek⟩ := consume_spec ready inside
  have count : countLines (joinLines crlf (line :: lines) ++ crlf).length
      (joinLines crlf (line :: lines) ++ crlf) = lines.length + 2 := by
    refine countLines_lines areLines ?_
    have := length_le_joinLines (line :: lines)
    rw [List.length_append]
    change _ ≤ _ + 2
    omega
  have enough : ¬ ¬ lines.length + 2 ≥ 2 := by omega
  cases resHead : env.resHead with
  | false =>
      refine Or.inl ⟨?_, fun both => Bool.noConfusion both.1⟩
      unfold gotheaders
      rw [resHead]
      rfl
  | true =>
      have result : gotheaders env buflen H =
          if !env.headers then die else
            match parseBlock env.overflow line lines with
            | none => fail
            | some (status, headers) =>
                handleHeaders { H with
                  R
                  resHead := joinLines crlf (line :: lines) ++ crlf
                  hepos := 0
                  res := { H.res with
                    status, nheaders := lines.length, headers } } := by
        unfold gotheaders
        dsimp only
        rw [head, consumed, resHead]
        change (if ¬ countLines _ _ ≥ 2 then _ else _) = _
        rw [count, if_neg enough, Nat.add_sub_cancel,
          parseHead_lines env.overflow areLines]
        rfl
      cases headers : env.headers with
      | false =>
          rw [headers] at result
          exact Or.inl ⟨result, fun both => Bool.noConfusion both.2⟩
      | true =>
          rw [headers] at result
          exact Or.inr ⟨R, readyR, peek, result⟩

end Libcperciva.Http.HttpHeaders
