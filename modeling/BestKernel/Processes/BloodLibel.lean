import BestKernel.Library.Loops
import BestKernel.Sched.Signals

/-!
# The victim of `BLOOD_LIBEL`

`BLOOD_LIBEL` looks for the process with the largest score and raises `SIGKILL` on it.
Its first loop waits for ever when slot 0 holds a process of the system, the bounds test
behind it never holds, and the champion of the second loop is slot 0 at the start,
taken or not.  `champion_spec` says who is the champion at the end.

`SIGKILL` is 0, so nothing is raised: `blood_libel_right_iff` says that the call is right
exactly when slot 0 is none of the system and the right process has the signal already,
and when the champion alone is the right one.

Readings of the source.  `contender*wk_count` is `contender->wk_count`, and the fields
that `class Process` does not declare have 32 bits.
-/

namespace BestKernel
namespace Processes

open Machine Sched

/-- `class Process`, as far as it is judged. -/
structure JudgedProcess where
  program_type : Half
  memory_usage : Half
  wk_count : Half
  sacrival : Half
  sigset : Half

/-- `class ProcessesKing`. -/
structure ProcessTable where
  length : Half
  ckarray : Nat → Byte
  pool : Nat → JudgedProcess

/-- `memory_usage/512*wk_count`, with 32 bits. -/
def JudgedProcess.score (p : JudgedProcess) : Half :=
  p.memory_usage / 512 * p.wk_count

/-- How `BLOOD_LIBEL` ends: the machine is shut down, or there is a champion. -/
inductive Judgement where
  | shutdown
  | killed (champion : Nat) (pool : Nat → JudgedProcess)

section Call

variable (SYSTEM : Half)

/-- The test of the second loop. -/
def Judged (ckarray : Nat → Byte) (pool : Nat → JudgedProcess) (i : Nat) : Prop :=
  (pool i).program_type ≠ SYSTEM ∧ ckarray i ≠ 0

instance (ckarray : Nat → Byte) (pool : Nat → JudgedProcess) (i : Nat) :
    Decidable (Judged SYSTEM ckarray pool i) :=
  inferInstanceAs (Decidable (_ ∧ _))

/-- One round of the first loop, which has no body. -/
def waitRound (t : ProcessTable) (i : Half) : Half ⊕ Half :=
  if (t.pool i.toNat).program_type = SYSTEM then .inl i else .inr i

/-- `contender->sacrival = ...` -/
def judge (pool : Nat → JudgedProcess) (i : Nat) : Nat → JudgedProcess :=
  Function.update pool i { pool i with sacrival := (pool i).score }

/-- The second loop, with `left` slots to look at from `i` on. -/
def judgeLoop (ckarray : Nat → Byte) :
    Nat → Nat → (Nat → JudgedProcess) → Nat → (Nat → JudgedProcess) × Nat
  | 0, _, pool, champion => (pool, champion)
  | left + 1, i, pool, champion =>
      if Judged SYSTEM ckarray pool i then
        let pool := judge pool i
        judgeLoop ckarray left (i + 1) pool
          (if (pool i).sacrival > (pool champion).sacrival then i else champion)
      else judgeLoop ckarray left (i + 1) pool champion

/-- `champion->sigset |= signals.SIGKILL`. -/
def raiseKill (pool : Nat → JudgedProcess) (champion : Nat) : Nat → JudgedProcess :=
  Function.update pool champion
    { pool champion with sigset := raiseSignal (pool champion).sigset .SIGKILL }

/-- `BLOOD_LIBEL`. -/
def bloodLibel (fuel : Nat) (t : ProcessTable) : Option Judgement := do
  let i ← Loops.run (waitRound SYSTEM t) fuel 0
  if i > t.length then return .shutdown
  else
    let (pool, champion) :=
      judgeLoop SYSTEM t.ckarray (t.length.toNat - i.toNat) i.toNat t.pool i.toNat
    return .killed champion (raiseKill pool champion)

end Call

section Verdict

variable (SYSTEM : Half) (t : ProcessTable)

/-- A process of the table that may be killed. -/
def MayDie (v : Nat) : Prop :=
  v < t.length.toNat ∧ Judged SYSTEM t.ckarray t.pool v

/-- The score as a number. -/
def JudgedProcess.trueScore (p : JudgedProcess) : Nat :=
  p.memory_usage.toNat / 512 * p.wk_count.toNat

/-- No process that may be killed has a larger score. -/
def Guilty (v : Nat) : Prop :=
  MayDie SYSTEM t v ∧ ∀ d, MayDie SYSTEM t d → (t.pool d).trueScore ≤ (t.pool v).trueScore

/-- The first of those with the largest score of 32 bits. -/
def FirstLargest (v : Nat) : Prop :=
  MayDie SYSTEM t v ∧ ∀ d, MayDie SYSTEM t d →
    (t.pool d).score ≤ (t.pool v).score ∧ (d < v → (t.pool d).score < (t.pool v).score)

/-- The signal as `check_signals` reads it. -/
def Condemned (p : JudgedProcess) : Prop :=
  p.sigset.getLsbD Signal.SIGKILL.code = true

/-- The call ends: exactly one process is killed, the right one, and scores apart no other
is changed, or none may be killed and the machine is shut down. -/
def BloodLibelRight : Prop :=
  ∃ fuel e, bloodLibel SYSTEM fuel t = some e ∧
    match e with
    | .shutdown => ∀ v, ¬ MayDie SYSTEM t v
    | .killed _ pool => ∃ v, Guilty SYSTEM t v ∧ Condemned (pool v) ∧
        pool v = { t.pool v with sacrival := (pool v).sacrival, sigset := (pool v).sigset } ∧
        ∀ p, p ≠ v → pool p = { t.pool p with sacrival := (pool p).sacrival }

/-- The champion is the right one. -/
def ChampionRight : Prop :=
  ∃ fuel champion pool,
    bloodLibel SYSTEM fuel t = some (.killed champion pool) ∧ Guilty SYSTEM t champion

end Verdict

section Spec

variable {SYSTEM : Half} {ckarray : Nat → Byte} {pool : Nat → JudgedProcess}

@[simp] theorem judge_self (i : Nat) :
    judge pool i i = { pool i with sacrival := (pool i).score } := by
  simp [judge]

@[simp] theorem judge_of_ne
    {i j : Nat}
    (h : j ≠ i) :
    judge pool i j = pool j := by
  simp [judge, h]

/-- Scores apart, nothing is changed by a judgement. -/
theorem judge_same (i j : Nat) :
    judge pool i j = { pool j with sacrival := (judge pool i j).sacrival } := by
  by_cases h : j = i
  · subst h
    simp
  · simp [h]

theorem judged_judge (i j : Nat) :
    Judged SYSTEM ckarray (judge pool i) j ↔ Judged SYSTEM ckarray pool j := by
  rw [Judged, Judged, judge_same i j]

theorem score_judge (i j : Nat) :
    (judge pool i j).score = (pool j).score := by
  rw [judge_same i j]
  rfl

theorem judgeLoop_judged
    {i : Nat}
    (left champion : Nat)
    (h : Judged SYSTEM ckarray pool i) :
    judgeLoop SYSTEM ckarray (left + 1) i pool champion =
      judgeLoop SYSTEM ckarray left (i + 1) (judge pool i)
        (if (pool i).score > (judge pool i champion).sacrival then i else champion) := by
  simp [judgeLoop, h]

theorem judgeLoop_skipped
    {i : Nat}
    (left champion : Nat)
    (h : ¬ Judged SYSTEM ckarray pool i) :
    judgeLoop SYSTEM ckarray (left + 1) i pool champion =
      judgeLoop SYSTEM ckarray left (i + 1) pool champion := by
  simp [judgeLoop, h]

theorem judgeLoop_same (left i champion j : Nat) :
    (judgeLoop SYSTEM ckarray left i pool champion).1 j =
      { pool j with sacrival := ((judgeLoop SYSTEM ckarray left i pool champion).1 j).sacrival } := by
  induction left generalizing i pool champion with
  | zero => rfl
  | succ left ih =>
      by_cases hjudged : Judged SYSTEM ckarray pool i
      · rw [judgeLoop_judged left champion hjudged, ih, judge_same i j]
      · rw [judgeLoop_skipped left champion hjudged, ih]

/-- Whether the champion that a loop started with is still the one, or which one is. -/
def Winner (SYSTEM : Half) (ckarray : Nat → Byte) (pool : Nat → JudgedProcess)
    (left i champion : Nat) (value : Half) (c : Nat) : Prop :=
  (c = champion ∧ ∀ j, i ≤ j → j < i + left → Judged SYSTEM ckarray pool j →
    (pool j).score.toNat ≤ value.toNat) ∨
  (i ≤ c ∧ c < i + left ∧ Judged SYSTEM ckarray pool c ∧ value.toNat < (pool c).score.toNat ∧
    ∀ j, i ≤ j → j < i + left → Judged SYSTEM ckarray pool j →
      (pool j).score.toNat ≤ (pool c).score.toNat ∧
        (j < c → (pool j).score.toNat < (pool c).score.toNat))

theorem winner_judge_iff
    {left i champion k : Nat} {value : Half} {c : Nat} :
    Winner SYSTEM ckarray (judge pool k) left i champion value c ↔
      Winner SYSTEM ckarray pool left i champion value c := by
  simp only [Winner, judged_judge, score_judge]

/-- A slot that is not judged does not matter. -/
theorem Winner.skip
    {left i champion : Nat} {value : Half} {c : Nat}
    (h : Winner SYSTEM ckarray pool left (i + 1) champion value c)
    (hskip : Judged SYSTEM ckarray pool i → (pool i).score.toNat ≤ value.toNat) :
    Winner SYSTEM ckarray pool (left + 1) i champion value c := by
  rcases h with ⟨hc, hall⟩ | ⟨hle, hlt, hjudged, hvalue, hall⟩
  · refine Or.inl ⟨hc, fun j hj hj' hjudged => ?_⟩
    rcases Nat.eq_or_lt_of_le hj with rfl | hj
    · exact hskip hjudged
    · exact hall j hj (by omega) hjudged
  · refine Or.inr ⟨by omega, by omega, hjudged, hvalue, fun j hj hj' hjudged' => ?_⟩
    rcases Nat.eq_or_lt_of_le hj with rfl | hj
    · have hsmall := hskip hjudged'
      exact ⟨by omega, fun _ => by omega⟩
    · exact hall j hj (by omega) hjudged'

/-- A slot with a larger score is the champion from there on. -/
theorem Winner.overtake
    {left i champion : Nat} {value : Half} {c : Nat}
    (h : Winner SYSTEM ckarray pool left (i + 1) i (pool i).score c)
    (hjudged : Judged SYSTEM ckarray pool i)
    (hlarger : value.toNat < (pool i).score.toNat) :
    Winner SYSTEM ckarray pool (left + 1) i champion value c := by
  rcases h with ⟨rfl, hall⟩ | ⟨hle, hlt, hjudged', hvalue, hall⟩
  · refine Or.inr ⟨Nat.le_refl _, by omega, hjudged, hlarger, fun j hj hj' hjudged' => ?_⟩
    rcases Nat.eq_or_lt_of_le hj with rfl | hj
    · exact ⟨Nat.le_refl _, fun h => absurd h (Nat.lt_irrefl _)⟩
    · exact ⟨hall j hj (by omega) hjudged', fun h => absurd h (by omega)⟩
  · refine Or.inr ⟨by omega, by omega, hjudged', by omega, fun j hj hj' hjudged'' => ?_⟩
    rcases Nat.eq_or_lt_of_le hj with rfl | hj
    · exact ⟨by omega, fun _ => hvalue⟩
    · exact hall j hj (by omega) hjudged''

/-- **The loop finds the first of the largest scores above the one it starts with.** -/
theorem judgeLoop_winner
    (left i champion : Nat)
    (hbelow : champion < i) :
    Winner SYSTEM ckarray pool left i champion (pool champion).sacrival
      (judgeLoop SYSTEM ckarray left i pool champion).2 := by
  induction left generalizing i pool champion with
  | zero => exact Or.inl ⟨rfl, fun j hj hj' => absurd hj' (by omega)⟩
  | succ left ih =>
      have hchampion : judge pool i champion = pool champion := judge_of_ne (by omega)
      by_cases hjudged : Judged SYSTEM ckarray pool i
      · rw [judgeLoop_judged left champion hjudged, hchampion]
        by_cases hlarger : (pool i).score > (pool champion).sacrival
        · rw [if_pos hlarger]
          have hrest := winner_judge_iff.mp
            (@ih (judge pool i) (i + 1) i (Nat.lt_succ_self i))
          rw [judge_self] at hrest
          exact hrest.overtake hjudged hlarger
        · rw [if_neg hlarger]
          have hrest := winner_judge_iff.mp
            (@ih (judge pool i) (i + 1) champion (by omega))
          rw [hchampion] at hrest
          exact hrest.skip fun _ => Nat.not_lt.mp hlarger
      · rw [judgeLoop_skipped left champion hjudged]
        exact (ih (i + 1) champion (by omega)).skip fun h => absurd h hjudged

variable {t : ProcessTable}

/-- What the second loop leaves of the whole table, and its champion. -/
def judgement (SYSTEM : Half) (t : ProcessTable) : (Nat → JudgedProcess) × Nat :=
  judgeLoop SYSTEM t.ckarray t.length.toNat 0 t.pool 0

/-- The call ends exactly when slot 0 is none of the system, and never in a shutdown. -/
theorem bloodLibel_returns_iff
    {e : Judgement} :
    (∃ fuel, bloodLibel SYSTEM fuel t = some e) ↔
      (t.pool 0).program_type ≠ SYSTEM ∧
        e = .killed (judgement SYSTEM t).2
          (raiseKill (judgement SYSTEM t).1 (judgement SYSTEM t).2) := by
  by_cases hsystem : (t.pool 0).program_type = SYSTEM
  · have hwait : waitRound SYSTEM t 0 = .inl 0 := by
      simp [waitRound, hsystem]
    have hnever : ∀ fuel, bloodLibel SYSTEM fuel t = none := by
      intro fuel
      have hendless : Loops.run (waitRound SYSTEM t) fuel 0 = none :=
        Loops.endless_of_invariant (f := fun _ : Unit => (0 : Half)) (I := fun _ => True)
          (fun _ _ => ⟨(), hwait, trivial⟩) (t := ()) trivial fuel
      rw [bloodLibel, hendless]
      rfl
    constructor
    · rintro ⟨fuel, he⟩
      rw [hnever fuel] at he
      cases he
    · exact fun h => absurd hsystem h.1
  · have hleave : waitRound SYSTEM t 0 = .inr 0 := by
      simp [waitRound, hsystem]
    have hreturn : ∀ fuel, bloodLibel SYSTEM (fuel + 1) t =
        some (.killed (judgement SYSTEM t).2
          (raiseKill (judgement SYSTEM t).1 (judgement SYSTEM t).2)) := by
      intro fuel
      have hbounds : ¬ (0 : Half) > t.length := by
        rw [gt_iff_lt, BitVec.lt_def]
        simp
      rw [bloodLibel, Loops.run_exit hleave, Option.bind_eq_bind, Option.bind_some,
        if_neg hbounds]
      rfl
    constructor
    · rintro ⟨fuel, he⟩
      cases fuel with
      | zero => cases he
      | succ fuel =>
          rw [hreturn fuel] at he
          cases he
          exact ⟨hsystem, rfl⟩
    · rintro ⟨_, rfl⟩
      exact ⟨1, hreturn 0⟩

/-- `SIGKILL` is 0: the signals of all processes are as before. -/
theorem raiseKill_judgement (v p : Nat) :
    raiseKill (judgement SYSTEM t).1 v p =
      { t.pool p with sacrival := ((judgement SYSTEM t).1 p).sacrival } := by
  have hsame : (judgement SYSTEM t).1 p =
      { t.pool p with sacrival := ((judgement SYSTEM t).1 p).sacrival } :=
    judgeLoop_same _ _ _ _
  rw [raiseKill]
  by_cases hp : p = v
  · subst hp
    rw [Function.update_self, raiseSignal, hsame]
    simp [Signal.code]
  · rw [Function.update_of_ne hp, hsame]

/-- **The call is right exactly when slot 0 is none of the system and the signal is
there already.** -/
theorem bloodLibelRight_iff :
    BloodLibelRight SYSTEM t ↔
      (t.pool 0).program_type ≠ SYSTEM ∧
        ∃ v, Guilty SYSTEM t v ∧ Condemned (t.pool v) := by
  constructor
  · rintro ⟨fuel, e, he, hright⟩
    obtain ⟨hsystem, rfl⟩ := bloodLibel_returns_iff.mp ⟨fuel, he⟩
    obtain ⟨v, hguilty, hcondemned, _, _⟩ := hright
    rw [raiseKill_judgement] at hcondemned
    exact ⟨hsystem, v, hguilty, hcondemned⟩
  · rintro ⟨hsystem, v, hguilty, hcondemned⟩
    obtain ⟨fuel, he⟩ := bloodLibel_returns_iff.mpr ⟨hsystem, rfl⟩
    refine ⟨fuel, _, he, v, hguilty, ?_, ?_, fun p _ => ?_⟩
    · rw [raiseKill_judgement]
      exact hcondemned
    · rw [raiseKill_judgement]
    · rw [raiseKill_judgement]

/-- The score that the champion of the start is compared with. -/
def firstValue (SYSTEM : Half) (t : ProcessTable) : Half :=
  if Judged SYSTEM t.ckarray t.pool 0 then (t.pool 0).score else (t.pool 0).sacrival

/-- The champion, slot 0 being looked at first. -/
theorem champion_spec
    {rest : Nat}
    (hlength : t.length.toNat = rest + 1) :
    Winner SYSTEM t.ckarray t.pool rest 1 0 (firstValue SYSTEM t) (judgement SYSTEM t).2 := by
  rw [judgement, hlength]
  by_cases hjudged : Judged SYSTEM t.ckarray t.pool 0
  · rw [judgeLoop_judged rest 0 hjudged, ite_self, firstValue, if_pos hjudged]
    have hwinner : Winner SYSTEM t.ckarray (judge t.pool 0) rest 1 0
        (judge t.pool 0 0).sacrival
        (judgeLoop SYSTEM t.ckarray rest 1 (judge t.pool 0) 0).2 :=
      judgeLoop_winner rest 1 0 Nat.zero_lt_one
    rw [winner_judge_iff, judge_self] at hwinner
    exact hwinner
  · rw [judgeLoop_skipped rest 0 hjudged, firstValue, if_neg hjudged]
    exact judgeLoop_winner rest 1 0 Nat.zero_lt_one

theorem FirstLargest.unique
    {v w : Nat}
    (hv : FirstLargest SYSTEM t v)
    (hw : FirstLargest SYSTEM t w) :
    v = w := by
  have hvw := hv.2 w hw.1
  have hwv := hw.2 v hv.1
  simp only [BitVec.le_def, BitVec.lt_def] at hvw hwv
  rcases Nat.lt_trichotomy v w with h | h | h
  · have := hwv.2 h
    omega
  · exact h
  · have := hvw.2 h
    omega

/-- A champion that may die is the first of the largest. -/
theorem Winner.firstLargest
    {rest c : Nat}
    (h : Winner SYSTEM t.ckarray t.pool rest 1 0 (firstValue SYSTEM t) c)
    (hlength : t.length.toNat = rest + 1)
    (hc : MayDie SYSTEM t c) :
    FirstLargest SYSTEM t c ∧
      (t.ckarray 0 ≠ 0 ∨ (t.pool 0).sacrival < (t.pool c).score) := by
  rcases h with ⟨rfl, hall⟩ | ⟨hle, hlt, hjudged, hvalue, hall⟩
  · refine ⟨⟨hc, fun d hd => ?_⟩, Or.inl hc.2.2⟩
    rw [firstValue, if_pos hc.2] at hall
    cases d with
    | zero => exact ⟨Nat.le_refl _, fun h => absurd h (Nat.lt_irrefl _)⟩
    | succ d =>
        have hin := hd.1
        exact ⟨hall (d + 1) (by omega) (by omega) hd.2, fun h => absurd h (by omega)⟩
  · refine ⟨⟨hc, fun d hd => ?_⟩, ?_⟩
    · cases d with
      | zero =>
          rw [firstValue, if_pos hd.2] at hvalue
          exact ⟨Nat.le_of_lt hvalue, fun _ => hvalue⟩
      | succ d =>
          have hin := hd.1
          exact hall (d + 1) (by omega) (by omega) hd.2
    · by_cases htaken : t.ckarray 0 ≠ 0
      · exact Or.inl htaken
      · rw [firstValue, if_neg fun h => htaken h.2] at hvalue
        exact Or.inr hvalue

/-- **The champion may die exactly when it is the first of the largest, and above the
score that slot 0 has from before if that slot is free.** -/
theorem champion_eq_iff
    (hsystem : (t.pool 0).program_type ≠ SYSTEM)
    (v : Nat) :
    MayDie SYSTEM t v ∧ (judgement SYSTEM t).2 = v ↔
      FirstLargest SYSTEM t v ∧ (t.ckarray 0 ≠ 0 ∨ (t.pool 0).sacrival < (t.pool v).score) := by
  -- an empty table has nobody who may die
  by_cases hempty : t.length.toNat = 0
  · constructor
    · exact fun h => absurd h.1.1 (by omega)
    · exact fun h => absurd h.1.1.1 (by omega)
  obtain ⟨rest, hlength⟩ := Nat.exists_eq_succ_of_ne_zero hempty
  have hwinner : Winner SYSTEM t.ckarray t.pool rest 1 0 (firstValue SYSTEM t)
      (judgement SYSTEM t).2 := champion_spec hlength
  generalize (judgement SYSTEM t).2 = c at hwinner
  constructor
  · rintro ⟨hdie, rfl⟩
    exact hwinner.firstLargest hlength hdie
  · rintro ⟨hlargest, habove⟩
    have hdie : MayDie SYSTEM t c := by
      rcases hwinner with ⟨rfl, hall⟩ | ⟨hle, hlt, hjudged, _, _⟩
      · by_contra hnot
        have hfree : ¬ Judged SYSTEM t.ckarray t.pool 0 := fun h => hnot ⟨by omega, h⟩
        have hscore := habove.resolve_left fun h => hfree ⟨hsystem, h⟩
        have hv : v ≠ 0 := fun h => hfree (h ▸ hlargest.1.2)
        have hin := hlargest.1.1
        have hle := hall v (by omega) (by omega) hlargest.1.2
        rw [firstValue, if_neg hfree] at hle
        exact Nat.not_lt.mpr hle hscore
      · exact ⟨by omega, hjudged⟩
    exact ⟨hlargest.1, (hwinner.firstLargest hlength hdie).1.unique hlargest⟩

theorem championRight_iff :
    ChampionRight SYSTEM t ↔
      (t.pool 0).program_type ≠ SYSTEM ∧
        ∃ v, Guilty SYSTEM t v ∧ FirstLargest SYSTEM t v ∧
          (t.ckarray 0 ≠ 0 ∨ (t.pool 0).sacrival < (t.pool v).score) := by
  constructor
  · rintro ⟨fuel, champion, pool, he, hguilty⟩
    obtain ⟨hsystem, he⟩ := bloodLibel_returns_iff.mp ⟨fuel, he⟩
    cases he
    exact ⟨hsystem, _, hguilty, (champion_eq_iff hsystem _).mp ⟨hguilty.1, rfl⟩⟩
  · rintro ⟨hsystem, v, hguilty, hlargest⟩
    obtain ⟨fuel, he⟩ := bloodLibel_returns_iff.mpr ⟨hsystem, rfl⟩
    have hchampion := ((champion_eq_iff hsystem v).mpr hlargest).2
    exact ⟨fuel, _, _, he, hchampion ▸ hguilty⟩

/-- **`BLOOD_LIBEL` is right exactly when slot 0 is none of the system and a process with
the largest score has the signal before; its champion is the right one exactly when the
first process with the largest score of 32 bits has the largest score, and slot 0 is taken
or had a lower one.** -/
theorem blood_libel_right_iff
    (SYSTEM : Half) (t : ProcessTable) :
    (BloodLibelRight SYSTEM t ↔
      (t.pool 0).program_type ≠ SYSTEM ∧ ∃ v, Guilty SYSTEM t v ∧ Condemned (t.pool v)) ∧
    (ChampionRight SYSTEM t ↔
      (t.pool 0).program_type ≠ SYSTEM ∧
        ∃ v, Guilty SYSTEM t v ∧ FirstLargest SYSTEM t v ∧
          (t.ckarray 0 ≠ 0 ∨ (t.pool 0).sacrival < (t.pool v).score)) :=
  ⟨bloodLibelRight_iff, championRight_iff⟩

/-- The types of the programs in the slots of a full table, one page of 2 MiB and one
thread each. -/
def fullTable (types : List Half) : ProcessTable :=
  ⟨BitVec.ofNat 32 types.length, fun _ => 1, fun i => ⟨types.getD i 0, 512, 1, 0, 0⟩⟩

/-- **A lone process is not killed, and behind one of the system none is found.** -/
theorem lone_process_not_killed :
    ¬ BloodLibelRight 1 (fullTable [0]) ∧ ¬ ChampionRight 1 (fullTable [1, 0]) := by
  constructor
  · rw [bloodLibelRight_iff]
    rintro ⟨_, v, _, hcondemned⟩
    simp [Condemned, fullTable] at hcondemned
  · rw [championRight_iff]
    exact fun h => h.1 rfl

end Spec

end Processes
end BestKernel
