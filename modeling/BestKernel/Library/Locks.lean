import Mathlib.Data.Set.Defs
import Mathlib.Data.List.Basic

/-!
# Locks along a path

What a call does with locks, in order: it takes some and clears some.  `Locks.hold` runs
the events from the locks that are held already, and fails where one is taken that is
held.  A path is disciplined when it never fails and, if the call comes back, nothing is
held at its end.

Paths are put together with `Path.andThen`, `Path.all` and `Path.locked`.  Two properties
are carried through them: `Closed`, which says that a path gives back what it takes, and
`Sticky`, which says that it clears no lock that it has not taken.  A sequence of sticky
paths never makes up for one that leaves a lock (`mem_hold_all`).
-/

namespace Locks

universe u

inductive Event (κ : Type u) where
  | take (c : κ)
  | clear (c : κ)

/-- The events of a call, and whether it comes back. -/
structure Path (κ : Type u) where
  events : List (Event κ)
  returned : Bool

section Paths

variable {κ : Type u}

namespace Path

/-- Nothing is taken. -/
def ret : Path κ := ⟨[], true⟩

/-- One path and, if it comes back, another one behind it. -/
def andThen (p q : Path κ) : Path κ :=
  if p.returned then ⟨p.events ++ q.events, q.returned⟩ else p

/-- Paths one behind the other. -/
def all (ps : List (Path κ)) : Path κ := ps.foldr andThen ret

/-- A path under a lock. -/
def locked (c : κ) (p : Path κ) : Path κ :=
  (andThen ⟨[.take c], true⟩ p).andThen ⟨[.clear c], true⟩

end Path

theorem returned_andThen
    {p q : Path κ} :
    (p.andThen q).returned = true ↔ p.returned = true ∧ q.returned = true := by
  rw [Path.andThen]
  split
  · simp_all
  · simp_all

variable [DecidableEq κ]

/-- The locks held after the events, `none` when one is taken that is held. -/
def hold : List (Event κ) → List κ → Option (List κ)
  | [], held => some held
  | .take c :: es, held => if c ∈ held then none else hold es (c :: held)
  | .clear c :: es, held => hold es (held.erase c)

/-- No lock is taken twice, and a call that comes back holds none. -/
def Disciplined (p : Path κ) : Prop :=
  ∃ held, hold p.events [] = some held ∧ (p.returned = true → held = [])

/-- From locks outside the set a path takes none twice and gives back what it takes. -/
def Closed (cs : Set κ) (p : Path κ) : Prop :=
  ∀ held, (∀ c, c ∈ held → c ∉ cs) →
    ∃ held', hold p.events held = some held' ∧ (p.returned = true → held' = held)

/-- A lock that is held stays so. -/
def Sticky (p : Path κ) : Prop :=
  ∀ c held held', c ∈ held → hold p.events held = some held' → c ∈ held'

theorem hold_append
    (es fs : List (Event κ)) (held : List κ) :
    hold (es ++ fs) held = (hold es held).bind (hold fs) := by
  induction es generalizing held with
  | nil => rfl
  | cons e es ih =>
      cases e with
      | take c =>
          rw [List.cons_append, hold, hold]
          split
          · rfl
          · exact ih _
      | clear c =>
          rw [List.cons_append, hold, hold]
          exact ih _

theorem hold_andThen
    {p q : Path κ}
    (hp : p.returned = true)
    (held : List κ) :
    hold (p.andThen q).events held = (hold p.events held).bind (hold q.events) := by
  rw [Path.andThen, if_pos hp]
  exact hold_append p.events q.events held

section Closed

variable {cs ds : Set κ} {p q : Path κ}

theorem Closed.mono
    (hp : Closed cs p)
    (hsub : ∀ c, c ∈ cs → c ∈ ds) :
    Closed ds p :=
  fun held hheld => hp held fun c hc hcs => hheld c hc (hsub c hcs)

theorem closed_ret : Closed cs (Path.ret : Path κ) :=
  fun held _ => ⟨held, rfl, fun _ => rfl⟩

theorem Closed.andThen
    (hp : Closed cs p)
    (hq : Closed cs q) :
    Closed cs (p.andThen q) := by
  intro held hheld
  obtain ⟨held', hhold, hback⟩ := hp held hheld
  cases hret : p.returned with
  | false =>
      refine ⟨held', ?_, fun h => ?_⟩
      · rwa [Path.andThen, if_neg (by simp [hret])]
      · rw [returned_andThen, hret] at h
        cases h.1
  | true =>
      obtain rfl := hback hret
      obtain ⟨held'', hhold', hback'⟩ := hq held' hheld
      refine ⟨held'', ?_, fun h => hback' (returned_andThen.mp h).2⟩
      rw [hold_andThen hret, hhold]
      exact hhold'

theorem closed_all
    {ps : List (Path κ)}
    (h : ∀ p, p ∈ ps → Closed cs p) :
    Closed cs (Path.all ps) := by
  induction ps with
  | nil => exact closed_ret
  | cons p ps ih =>
      have hrest := ih fun q hq => h q (List.mem_cons_of_mem p hq)
      exact (h p List.mem_cons_self).andThen hrest

/-- A lock around a path that does not touch it. -/
theorem Closed.locked
    {c : κ}
    (hp : Closed cs p)
    (hfree : c ∉ cs)
    (hin : c ∈ ds)
    (hsub : ∀ d, d ∈ cs → d ∈ ds) :
    Closed ds (Path.locked c p) := by
  intro held hheld
  have hc : c ∉ held := fun h => hheld c h hin
  have hinner : ∀ d, d ∈ c :: held → d ∉ cs := by
    intro d hd
    rcases List.mem_cons.mp hd with rfl | hd
    · exact hfree
    · exact fun hcs => hheld d hd (hsub d hcs)
  obtain ⟨held', hhold, hback⟩ := hp (c :: held) hinner
  have htake : hold (Path.andThen ⟨[.take c], true⟩ p).events held = some held' := by
    rw [hold_andThen rfl, hold, if_neg hc]
    exact hhold
  have hret : (Path.andThen ⟨[.take c], true⟩ p).returned = p.returned := rfl
  cases hp' : p.returned with
  | false =>
      refine ⟨held', ?_, fun h => ?_⟩
      · rwa [Path.locked, Path.andThen, if_neg (by simp [hret, hp'])]
      · rw [Path.locked, returned_andThen, hret, hp'] at h
        cases h.1
  | true =>
      refine ⟨held, ?_, fun _ => rfl⟩
      rw [Path.locked, hold_andThen (hret.trans hp'), htake, hback hp']
      simp [hold]

theorem disciplined_of_closed
    (hp : Closed cs p) :
    Disciplined p :=
  hp [] fun _ hc => absurd hc List.not_mem_nil

end Closed

section Sticky

variable {p q : Path κ}

theorem sticky_ret : Sticky (Path.ret : Path κ) := by
  intro c held held' hc h
  cases h
  exact hc

theorem sticky_take (d : κ) (returned : Bool) : Sticky (⟨[.take d], returned⟩ : Path κ) := by
  intro c held held' hc h
  simp only [hold] at h
  split at h
  · cases h
  · cases h
    exact List.mem_cons_of_mem d hc

theorem mem_of_hold_take
    {c : κ} {held held' : List κ}
    (h : hold [.take c] held = some held') :
    c ∈ held' := by
  rw [hold] at h
  split at h
  · cases h
  · cases h
    exact List.mem_cons_self

theorem Sticky.andThen
    (hp : Sticky p)
    (hq : Sticky q) :
    Sticky (p.andThen q) := by
  intro c held held' hc h
  cases hret : p.returned with
  | false =>
      rw [Path.andThen, if_neg (by simp [hret])] at h
      exact hp c held held' hc h
  | true =>
      rw [hold_andThen hret] at h
      obtain ⟨held₁, hhold, hrest⟩ := Option.bind_eq_some_iff.mp h
      exact hq c held₁ held' (hp c held held₁ hc hhold) hrest

theorem sticky_all
    {ps : List (Path κ)}
    (h : ∀ p, p ∈ ps → Sticky p) :
    Sticky (Path.all ps) := by
  induction ps with
  | nil => exact sticky_ret
  | cons p ps ih =>
      have hrest := ih fun q hq => h q (List.mem_cons_of_mem p hq)
      exact (h p List.mem_cons_self).andThen hrest

/-- A lock around a path clears only itself, and not when it was held before. -/
theorem Sticky.locked
    (hp : Sticky p)
    (d : κ) :
    Sticky (Path.locked d p) := by
  intro c held held' hc h
  have htaken : Sticky (Path.andThen ⟨[.take d], true⟩ p) := (sticky_take d true).andThen hp
  have hret : (Path.andThen ⟨[.take d], true⟩ p).returned = p.returned := rfl
  cases hp' : p.returned with
  | false =>
      rw [Path.locked, Path.andThen, if_neg (by simp [hret, hp'])] at h
      exact htaken c held held' hc h
  | true =>
      rw [Path.locked, hold_andThen (hret.trans hp')] at h
      obtain ⟨held₁, hhold, hclear⟩ := Option.bind_eq_some_iff.mp h
      have hkept := htaken c held held₁ hc hhold
      have hne : c ≠ d := by
        rintro rfl
        rw [hold_andThen rfl, hold, if_pos hc] at hhold
        cases hhold
      cases hclear
      exact (List.mem_erase_of_ne hne).mpr hkept

/-- A lock that one of the paths leaves is held at the end of a call that comes back. -/
theorem mem_hold_all
    {ps : List (Path κ)} {c : κ}
    (hsticky : ∀ q, q ∈ ps → Sticky q)
    (hp : p ∈ ps)
    (hleaves : ∀ held held', hold p.events held = some held' → c ∈ held')
    (hreturned : (Path.all ps).returned = true)
    {held held' : List κ}
    (h : hold (Path.all ps).events held = some held') :
    c ∈ held' := by
  induction ps generalizing held with
  | nil => cases hp
  | cons q ps ih =>
      obtain ⟨hq, hps⟩ := returned_andThen.mp hreturned
      have hrest : ∀ r, r ∈ ps → Sticky r :=
        fun r hr => hsticky r (List.mem_cons_of_mem q hr)
      obtain ⟨held₁, hhold, htail⟩ := Option.bind_eq_some_iff.mp
        ((hold_andThen (q := Path.all ps) hq held).symm.trans h)
      rcases List.mem_cons.mp hp with rfl | hp
      · exact sticky_all hrest c held₁ held' (hleaves held held₁ hhold) htail
      · exact ih hrest hp hps htail

end Sticky

end Paths

end Locks
