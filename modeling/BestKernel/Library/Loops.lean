import Mathlib.Tactic.Common

/-!
# Loops with fuel

A `for` loop without an obvious bound is a body that either goes on with a new
state or leaves with a result.  `Loops.run` executes a number of rounds; what it
returns does not depend on how many rounds were granted (`Loops.run_unique`),
and an invariant of the body decides what can be returned
(`Loops.run_invariant`).

The states that a loop comes to are those of `Loops.Reaches`.  A loop whose states are
given by values `t` ends when a measure of `t` goes down (`Loops.ends_of_measure`), and
never when it can always go on (`Loops.endless_of_invariant`).
-/

namespace Loops

universe u v

variable {σ : Type u} {ρ : Type v}

/-- At most `fuel` rounds; `none` when the loop has not left by then. -/
def run (body : σ → σ ⊕ ρ) : Nat → σ → Option ρ
  | 0, _ => none
  | fuel + 1, s =>
      match body s with
      | .inl s' => run body fuel s'
      | .inr r => some r

variable {body : σ → σ ⊕ ρ}

theorem run_next
    {s s' : σ}
    (h : body s = .inl s')
    (fuel : Nat) :
    run body (fuel + 1) s = run body fuel s' := by
  rw [run, h]

theorem run_exit
    {s : σ} {r : ρ}
    (h : body s = .inr r)
    (fuel : Nat) :
    run body (fuel + 1) s = some r := by
  rw [run, h]

/-- More fuel does not change a result. -/
theorem run_add
    {fuel : Nat} {s : σ} {r : ρ}
    (h : run body fuel s = some r)
    (more : Nat) :
    run body (fuel + more) s = some r := by
  induction fuel generalizing s with
  | zero => simp [run] at h
  | succ fuel ih =>
      rw [Nat.succ_add]
      cases hb : body s with
      | inl s' =>
          rw [run_next hb] at h ⊢
          exact ih h
      | inr r' =>
          rw [run_exit hb] at h ⊢
          exact h

/-- A loop has at most one result. -/
theorem run_unique
    {fuel fuel' : Nat} {s : σ} {r r' : ρ}
    (h : run body fuel s = some r)
    (h' : run body fuel' s = some r') :
    r = r' := by
  have hadd := run_add h fuel'
  rw [Nat.add_comm, run_add h' fuel] at hadd
  exact (Option.some.inj hadd).symm

/-- An invariant of the body holds when the loop leaves. -/
theorem run_invariant
    {I : σ → Prop} {Q : ρ → Prop}
    (hnext : ∀ s s', I s → body s = .inl s' → I s')
    (hexit : ∀ s r, I s → body s = .inr r → Q r)
    {fuel : Nat} {s : σ} {r : ρ}
    (hs : I s)
    (h : run body fuel s = some r) :
    Q r := by
  induction fuel generalizing s with
  | zero => simp [run] at h
  | succ fuel ih =>
      cases hb : body s with
      | inl s' =>
          rw [run_next hb] at h
          exact ih (hnext s s' hs hb) h
      | inr r' =>
          rw [run_exit hb] at h
          cases h
          exact hexit s r hs hb

/-- The rounds of the loop lead from one state to another. -/
inductive Reaches (body : σ → σ ⊕ ρ) : σ → σ → Prop
  | here (s : σ) : Reaches body s s
  | next {s s' t : σ}
      (hround : body s = .inl s')
      (hrest : Reaches body s' t) :
      Reaches body s t

theorem Reaches.trans
    {s t u : σ}
    (h : Reaches body s t)
    (h' : Reaches body t u) :
    Reaches body s u := by
  induction h with
  | here s => exact h'
  | next hround hrest ih => exact .next hround (ih h')

/-- An invariant of the rounds holds wherever they lead. -/
theorem Reaches.invariant
    {I : σ → Prop}
    (hnext : ∀ s s', I s → body s = .inl s' → I s')
    {s t : σ}
    (h : Reaches body s t)
    (hs : I s) :
    I t := by
  induction h with
  | here s => exact hs
  | next hround hrest ih => exact ih (hnext _ _ hs hround)

/-- A loop that leaves at once comes nowhere else. -/
theorem Reaches.eq_of_exit
    {s t : σ} {r : ρ}
    (hexit : body s = .inr r)
    (h : Reaches body s t) :
    t = s := by
  cases h with
  | here => rfl
  | next hround hrest =>
      rw [hexit] at hround
      cases hround

/-- What a loop returns from a state that it comes to, it returns. -/
theorem Reaches.run
    {s t : σ} {fuel : Nat} {r : ρ}
    (h : Reaches body s t)
    (hrun : Loops.run body fuel t = some r) :
    ∃ fuel', Loops.run body fuel' s = some r := by
  induction h with
  | here s => exact ⟨fuel, hrun⟩
  | next hround hrest ih =>
      obtain ⟨fuel', hrun'⟩ := ih hrun
      exact ⟨fuel' + 1, by rw [run_next hround, hrun']⟩

section Representations

universe w

variable {τ : Type w} {f : τ → σ} {I : τ → Prop}

/-- A loop ends when a measure of its states goes down. -/
theorem ends_of_measure
    (μ : τ → Nat)
    (hround : ∀ t, I t → (∃ r, body (f t) = .inr r) ∨
      ∃ t', body (f t) = .inl (f t') ∧ I t' ∧ μ t' < μ t)
    {t : τ}
    (ht : I t) :
    ∃ fuel r, run body fuel (f t) = some r := by
  have hmeasure : ∀ n t, I t → μ t < n → ∃ r, run body n (f t) = some r := by
    intro n
    induction n with
    | zero => exact fun t _ hlt => absurd hlt (Nat.not_lt_zero _)
    | succ n ih =>
        intro t ht hlt
        rcases hround t ht with ⟨r, hexit⟩ | ⟨t', hnext, ht', hless⟩
        · exact ⟨r, run_exit hexit n⟩
        · obtain ⟨r, hrun⟩ := ih t' ht' (by omega)
          exact ⟨r, by rw [run_next hnext, hrun]⟩
  obtain ⟨r, hrun⟩ := hmeasure (μ t + 1) t ht (Nat.lt_succ_self _)
  exact ⟨μ t + 1, r, hrun⟩

/-- A loop that can always go on has no result. -/
theorem endless_of_invariant
    (hround : ∀ t, I t → ∃ t', body (f t) = .inl (f t') ∧ I t')
    {t : τ}
    (ht : I t)
    (fuel : Nat) :
    run body fuel (f t) = none := by
  induction fuel generalizing t with
  | zero => rfl
  | succ fuel ih =>
      obtain ⟨t', hnext, ht'⟩ := hround t ht
      rw [run_next hnext]
      exact ih ht'

end Representations

end Loops
