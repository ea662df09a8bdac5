import Mathlib.Data.List.Nodup
import Mathlib.Logic.Function.Basic

/-!
# Numbered tokens

Tokens get increasing numbers when they are made.  Each token is held at one
place until it leaves, and never comes back: the list `gone` of the tokens
that have left holds no number twice, and none that is held.
-/

namespace Libcperciva.Lib.NumberedTokens

variable {ε π : Type*}

/-- Which tokens are held where, and which have left. -/
structure Registry (number : ε → Nat) (held : π → Option ε)
    (next : Nat) (gone : List Nat) : Prop where
  numbered : ∀ p e, held p = some e → number e < next
  distinct : ∀ p q e f, held p = some e → held q = some f →
    number e = number f → p = q
  gone_lt : ∀ n ∈ gone, n < next
  notHeld : ∀ p e, held p = some e → number e ∉ gone
  once : gone.Nodup

variable {number : ε → Nat} {held : π → Option ε} {next : Nat}
  {gone : List Nat}

theorem Registry.empty (number : ε → Nat) :
    Registry number (fun _ : π => none) 0 [] where
  numbered _ _ noToken := absurd noToken (Option.some_ne_none _).symm
  distinct _ _ _ _ noToken := absurd noToken (Option.some_ne_none _).symm
  gone_lt _ member := absurd member List.not_mem_nil
  notHeld _ _ noToken := absurd noToken (Option.some_ne_none _).symm
  once := List.nodup_nil

/-- Numbers are skipped. -/
theorem Registry.mono (registry : Registry number held next gone)
    {after : Nat} (le : next ≤ after) : Registry number held after gone where
  numbered p e isHeld :=
    Nat.lt_of_lt_of_le (registry.numbered p e isHeld) le
  distinct := registry.distinct
  gone_lt n member := Nat.lt_of_lt_of_le (registry.gone_lt n member) le
  notHeld := registry.notHeld
  once := registry.once

/-- The order in which tokens have left does not matter. -/
theorem Registry.perm (registry : Registry number held next gone)
    {others : List Nat} (perm : gone.Perm others) :
    Registry number held next others where
  numbered := registry.numbered
  distinct := registry.distinct
  gone_lt n member := registry.gone_lt n (perm.mem_iff.mpr member)
  notHeld p e isHeld member :=
    registry.notHeld p e isHeld (perm.mem_iff.mpr member)
  once := perm.nodup_iff.mp registry.once

variable [DecidableEq π]

/-- A new token enters at a place. -/
theorem Registry.enter (registry : Registry number held next gone)
    {p : π} {e : ε} (isNext : number e = next) :
    Registry number (Function.update held p (some e)) (next + 1) gone := by
  -- What is held is the new token, or was held before.
  have cases : ∀ q f, Function.update held p (some e) q = some f →
      q = p ∧ f = e ∨ q ≠ p ∧ held q = some f := by
    intro q f isHeld
    by_cases here : q = p
    · subst here
      rw [Function.update_self, Option.some.injEq] at isHeld
      exact Or.inl ⟨rfl, isHeld.symm⟩
    · rw [Function.update_of_ne here] at isHeld
      exact Or.inr ⟨here, isHeld⟩
  constructor
  · intro q f isHeld
    rcases cases q f isHeld with ⟨_, rfl⟩ | ⟨_, before⟩
    · rw [isNext]
      exact Nat.lt_succ_self next
    · exact Nat.lt_succ_of_lt (registry.numbered q f before)
  · intro q r f g isF isG same
    rcases cases q f isF with ⟨rfl, rfl⟩ | ⟨_, beforeF⟩ <;>
      rcases cases r g isG with ⟨rfl, rfl⟩ | ⟨_, beforeG⟩
    · rfl
    · have below := registry.numbered r g beforeG
      omega
    · have below := registry.numbered q f beforeF
      omega
    · exact registry.distinct q r f g beforeF beforeG same
  · intro n member
    exact Nat.lt_succ_of_lt (registry.gone_lt n member)
  · intro q f isHeld member
    rcases cases q f isHeld with ⟨_, rfl⟩ | ⟨_, before⟩
    · have below := registry.gone_lt _ member
      omega
    · exact registry.notHeld q f before member
  · exact registry.once

/-- A token leaves its place. -/
theorem Registry.leave (registry : Registry number held next gone)
    {p : π} {e : ε} (isHeld : held p = some e) :
    Registry number (Function.update held p none) next
      (gone ++ [number e]) := by
  have before : ∀ q f, Function.update held p none q = some f →
      q ≠ p ∧ held q = some f := by
    intro q f isF
    by_cases here : q = p
    · subst here
      rw [Function.update_self] at isF
      exact absurd isF (Option.some_ne_none f).symm
    · rw [Function.update_of_ne here] at isF
      exact ⟨here, isF⟩
  constructor
  · intro q f isF
    exact registry.numbered q f (before q f isF).2
  · intro q r f g isF isG same
    exact registry.distinct q r f g (before q f isF).2 (before r g isG).2 same
  · intro n member
    rcases List.mem_append.mp member with earlier | last
    · exact registry.gone_lt n earlier
    · rw [List.mem_singleton.mp last]
      exact registry.numbered p e isHeld
  · intro q f isF member
    obtain ⟨elsewhere, isF⟩ := before q f isF
    rcases List.mem_append.mp member with earlier | last
    · exact registry.notHeld q f isF earlier
    · exact elsewhere
        (registry.distinct q p f e isF isHeld (List.mem_singleton.mp last))
  · refine List.nodup_append.mpr
      ⟨registry.once, List.nodup_singleton _, ?_⟩
    intro n member m isLast same
    rw [List.mem_singleton.mp isLast] at same
    exact registry.notHeld p e isHeld (same ▸ member)

end Libcperciva.Lib.NumberedTokens
