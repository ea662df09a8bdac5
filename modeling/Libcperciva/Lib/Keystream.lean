import Mathlib.Data.List.Basic

/-!
# Stream ciphers

A stream cipher xors the bytes of a message with those of a keystream.  A
message that is given in parts is the same as the whole message, if each part
starts where the one before it ended.
-/

namespace Libcperciva.Lib.Keystream

variable {keystream : Nat → UInt8} {pos : Nat}

/-- Xor a message with the keystream from a position on. -/
def xorFrom (keystream : Nat → UInt8) (pos : Nat) : List UInt8 → List UInt8
  | [] => []
  | byte :: message =>
      (byte ^^^ keystream pos) :: xorFrom keystream (pos + 1) message

theorem xorFrom_append (keystream : Nat → UInt8) (pos : Nat)
    (message others : List UInt8) :
    xorFrom keystream pos (message ++ others) =
      xorFrom keystream pos message ++
        xorFrom keystream (pos + message.length) others := by
  induction message generalizing pos with
  | nil => rfl
  | cons byte message ih =>
      show _ :: xorFrom keystream (pos + 1) (message ++ others) = _
      rw [ih (pos + 1), List.length_cons, Nat.add_right_comm, Nat.add_assoc]
      rfl

@[simp]
theorem length_xorFrom (keystream : Nat → UInt8) (pos : Nat)
    (message : List UInt8) :
    (xorFrom keystream pos message).length = message.length := by
  induction message generalizing pos with
  | nil => rfl
  | cons byte message ih => exact congrArg (· + 1) (ih (pos + 1))

/-- The same keystream gives the message back. -/
theorem xorFrom_xorFrom (keystream : Nat → UInt8) (pos : Nat)
    (message : List UInt8) :
    xorFrom keystream pos (xorFrom keystream pos message) = message := by
  induction message generalizing pos with
  | nil => rfl
  | cons byte message ih =>
      show (byte ^^^ keystream pos ^^^ keystream pos) :: _ = _
      rw [UInt8.xor_assoc, UInt8.xor_self, UInt8.xor_zero]
      exact congrArg (byte :: ·) (ih (pos + 1))

/-- Xor with bytes that agree with the keystream. -/
theorem zipWith_eq_xorFrom {message bytes : List UInt8}
    (length : message.length = bytes.length)
    (agrees : ∀ i (inside : i < bytes.length),
      bytes[i] = keystream (pos + i)) :
    List.zipWith (· ^^^ ·) message bytes = xorFrom keystream pos message := by
  induction message generalizing pos bytes with
  | nil => rfl
  | cons byte message ih =>
      cases bytes with
      | nil => cases length
      | cons other bytes =>
          have first : other = keystream pos := agrees 0 (Nat.succ_pos _)
          have rest := @ih (pos + 1) bytes (Nat.succ.inj length)
            fun i inside => by
              have next := agrees (i + 1) (Nat.succ_lt_succ inside)
              rw [Nat.add_right_comm]
              exact next
          show (byte ^^^ other) :: _ = (byte ^^^ keystream pos) :: _
          rw [rest, first]

/-- A message of which a part was xored. -/
structure Xored (keystream : Nat → UInt8) (pos : Nat)
    (message rest done : List UInt8) : Prop where
  split : ∃ front, message = front ++ rest ∧
    done = xorFrom keystream pos front

theorem Xored.start (keystream : Nat → UInt8) (pos : Nat)
    (message : List UInt8) : Xored keystream pos message message [] :=
  ⟨[], rfl, rfl⟩

/-- The next part is xored. -/
theorem Xored.append {message front rest done : List UInt8}
    (xored : Xored keystream pos message (front ++ rest) done) :
    Xored keystream pos message rest
      (done ++ xorFrom keystream (pos + done.length) front) := by
  rcases xored.split with ⟨before, split, rfl⟩
  refine ⟨before ++ front, ?_, ?_⟩
  · rw [split, List.append_assoc]
  · rw [xorFrom_append, length_xorFrom]

theorem Xored.length {message rest done : List UInt8}
    (xored : Xored keystream pos message rest done) :
    message.length = done.length + rest.length := by
  rcases xored.split with ⟨before, rfl, rfl⟩
  rw [List.length_append, length_xorFrom]

theorem Xored.finish {message done : List UInt8}
    (xored : Xored keystream pos message [] done) :
    done = xorFrom keystream pos message := by
  rcases xored.split with ⟨before, split, rfl⟩
  rw [split, List.append_nil]

end Libcperciva.Lib.Keystream
