import Mathlib.Data.BitVec
import BestKernel.Library.Runs
import BestKernel.Syscalls.UserBuffers

/-!
# Streams

`SYSREAD` and `SYSWRITE` with offset 0 go on where the last such call on the descriptor
has stopped.  `OffsetsExact` says that the position of a descriptor is the number of bytes
that its stream calls have transferred, and `CallRight` what a call returns.  Reads one after
the other (`StreamReads`) should deliver what one long read delivers.

A request moves one page or nothing, whatever its size, while the position and the value
returned follow the size asked for, and the result of `Virtual_fs` is dropped.  So a call
that gets past the checks on its descriptor is right only if it moves a page and has asked
for one (`stream_offsets_iff`).

The bytes transferred are the ones that are accessed; the record of them is not part of
the source.  A call that never returns is no step.
-/

namespace BestKernel
namespace Syscalls

open Machine Mem Runs

/-- The calls. -/
inductive StreamOp where
  | read (descriptor : Half) (buf amount offset : Word)
  | write (desc : Half) (buf : Word) (amount offset : Half)

namespace StreamOp

def desc : StreamOp → Half
  | read descriptor _ _ _ => descriptor
  | write desc _ _ _ => desc

def permission : StreamOp → Half
  | read _ _ _ _ => READ
  | write _ _ _ _ => WRITE

def buf : StreamOp → Word
  | read _ buf _ _ => buf
  | write _ buf _ _ => buf

def amount : StreamOp → Word
  | read _ _ amount _ => amount
  | write _ _ amount _ => amount.setWidth 64

def offset : StreamOp → Word
  | read _ _ _ offset => offset
  | write _ _ _ offset => offset.setWidth 64

/-- The code for an offset beyond the end. -/
def beyond : StreamOp → Int
  | read _ _ _ _ => 3
  | write _ _ _ _ => 4

def run (disks : Disks) (errcode : Int) (fuel : Nat) (s : State) : StreamOp → Option Result
  | read descriptor buf amount offset =>
      sysRead disks fuel errcode s descriptor buf amount offset
  | write desc buf amount offset => sysWrite disks fuel errcode s desc buf amount offset

/-- The checks on the descriptor refuse the call. -/
def Refused (errcode : Int) (s : State) (op : StreamOp) : Prop :=
  s.refuses op.desc op.permission (-1) errcode ≠ none

/-- `Virtual_fs` fails. -/
def VfsFails (s : State) (op : StreamOp) : Prop :=
  noData (s.fileOf op.desc) (s.position op.desc op.offset) op.beyond ≠ none

end StreamOp

/-- The caller and its files, and for every descriptor the number of bytes that its
successful stream calls have transferred. -/
structure StreamState where
  state : State
  transferred : Nat → Nat

section Specification

variable (disks : Disks) (errcode : Int)

/-- The record behind a call. -/
def recorded (s : StreamState) (op : StreamOp) (r : Result) : Nat → Nat :=
  if op.offset = 0 ∧ s.state.refuses op.desc op.permission (-1) errcode = none ∧
      noData (s.state.fileOf op.desc) (s.state.position op.desc op.offset) op.beyond = none then
    Function.update s.transferred op.desc.toNat
      (s.transferred op.desc.toNat + r.accessed.length)
  else s.transferred

/-- A call that returns, with what it returns. -/
def StreamStep (s : StreamState) (call : StreamOp × Result) (s' : StreamState) : Prop :=
  (∃ fuel, call.1.run disks errcode fuel s.state = some call.2) ∧
    s' = ⟨call.2.state, recorded errcode s call.1 call.2⟩

/-- **The position of a descriptor is what its stream calls have transferred.** -/
def OffsetsExact (s : StreamState) : Prop :=
  ∀ i, (s.state.process.descs i).file_offset.toNat = s.transferred i

/-- **A call returns the number of bytes transferred, or an error code.** -/
structure CallRight (s : StreamState) (call : StreamOp × Result) (_s' : StreamState) : Prop where
  failed :
    call.1.Refused errcode s.state ∨ call.1.VfsFails s.state →
      ∃ code, call.2.sys_retval = .error code
  done :
    ¬ call.1.Refused errcode s.state → ¬ call.1.VfsFails s.state →
      call.2.sys_retval = .ok call.2.accessed.length

/-- The condition on a call, in the state before it. -/
def StreamSafe (s : StreamState) (call : StreamOp × Result) : Prop :=
  call.1.Refused errcode s.state ∨
    ¬ call.1.VfsFails s.state ∧ call.1.amount = 4096 ∧
      (call.1.offset = 0 →
        (s.state.process.descs call.1.desc.toNat).file_offset.toNat + 4096 < 2 ^ 64)

/-- The positions in the file of the bytes that a read in stream mode delivers. -/
def deliveredBy (s : State) (desc : Half) (r : Result) : List Word :=
  flatRange (s.position desc 0) r.accessed.length

/-- Stream reads of the given sizes, into whatever buffers, and what they deliver. -/
inductive StreamReads (desc : Half) : State → List Word → List Word → Prop
  | nil (s : State) : StreamReads desc s [] []
  | cons {s : State} {fuel : Nat} {buf amount : Word} {sizes delivered : List Word} {r : Result}
      (hread : sysRead disks fuel errcode s desc buf amount 0 = some r)
      (hrest : StreamReads desc r.state sizes delivered) :
      StreamReads desc s (amount :: sizes) (deliveredBy s desc r ++ delivered)

/-- A read of this size at this position moves a page. -/
def MovesPage (file : Meta) (position amount : Word) : Prop :=
  noData file position 3 = none ∧
    (pagetypeRoundup amount walkedPagetype).setWidth 32 ≠ (0 : Half)

instance (file : Meta) (position amount : Word) : Decidable (MovesPage file position amount) :=
  inferInstanceAs (Decidable (_ ∧ _))

/-- The positions from which reads one after the other move pages. -/
def pagesMoved (file : Meta) : Word → List Word → List Word
  | _, [] => []
  | position, amount :: sizes =>
      (if MovesPage file position amount then [position] else []) ++
        pagesMoved file (position + amount) sizes

/-- None of the reads of these sizes moves a page, each from where the one before it ends. -/
def NoneMoves (file : Meta) (position : Word) (sizes : List Word) : Prop :=
  ∀ before amount after, sizes = before ++ amount :: after →
    ¬ MovesPage file (position + before.sum) amount

/-- One of them does, from the position they start at: those in front of it are of no bytes
altogether, and those behind it move nothing. -/
def OneMoves (file : Meta) (position : Word) (sizes : List Word) : Prop :=
  ∃ before amount after, sizes = before ++ amount :: after ∧ before.sum = 0 ∧
    NoneMoves file position before ∧ MovesPage file position amount ∧
      NoneMoves file (position + amount) after

/-- The condition on reads one after the other: nothing is read at all, or one of them moves a
page where one read of all their bytes does, and none where it does not. -/
def ComposeSafe (s : State) (desc : Half) (sizes : List Word) : Prop :=
  s.refuses desc READ (-1) errcode ≠ none ∨
    if MovesPage (s.fileOf desc) (s.position desc 0) sizes.sum then
      OneMoves (s.fileOf desc) (s.position desc 0) sizes
    else NoneMoves (s.fileOf desc) (s.position desc 0) sizes

end Specification

section Requests

variable {disks : Disks} {action : DiskAction} {part : Half} {reloff : Word}

/-- The number of bytes that a transfer moves. -/
def pageLength (file : Meta) (beyond : Int) (position amount : Word) : Nat :=
  if noData file position beyond = none ∧
      (pagetypeRoundup amount walkedPagetype).setWidth 32 ≠ (0 : Half) then 4096
  else 0

theorem vfsTransfer_eq
    {fuel : Nat} {beyond code : Int} {s s' : State} {file : Meta} {buf amount offset : Word}
    {accessed : List Word}
    (h : vfsTransfer disks fuel beyond action s file buf amount offset =
      some (code, s', accessed)) :
    accessed.length = pageLength file beyond offset amount ∧ s'.process = s.process ∧
      s'.descriptions = s.descriptions := by
  unfold vfsTransfer vfsBy at h
  unfold pageLength
  cases hdata : noData file offset beyond with
  | some beyond' =>
      rw [hdata] at h
      cases h
      simp
  | none =>
      rw [hdata] at h
      dsimp only at h
      obtain ⟨t, ht, heq⟩ := Option.map_eq_some_iff.mp h
      cases heq
      rw [diskRequest_accessed_eq ht]
      refine ⟨?_, rfl, rfl⟩
      split_ifs with hzero hmoves hmoves
      · exact absurd hzero hmoves.2
      · rfl
      · simp [flatRange]
      · exact absurd ⟨rfl, hzero⟩ hmoves

/-- A call that is not refused returns what it was asked for and moves a page or nothing. -/
theorem sysTransfer_eq
    {fuel : Nat} {permission : Half} {errcode beyond : Int} {s : State} {desc : Half}
    {buf amount offset : Word} {r : Result}
    (hpass : s.refuses desc permission (-1) errcode = none)
    (h : sysTransfer permission errcode (vfsTransfer disks fuel beyond action) s desc buf
      amount offset = some r) :
    r.sys_retval = .ok amount.toNat ∧
      r.accessed.length = pageLength (s.fileOf desc) beyond (s.position desc offset) amount ∧
      r.state.descriptions = s.descriptions ∧
      r.state.process = { s.process with
        descs :=
          if offset = 0 then
            Function.update s.process.descs desc.toNat
              ⟨(s.process.descs desc.toNat).findex,
                (s.process.descs desc.toNat).file_offset + amount⟩
          else s.process.descs } := by
  unfold sysTransfer at h
  rw [hpass] at h
  dsimp only at h
  obtain ⟨⟨code, s', accessed⟩, hvfs, heq⟩ := Option.map_eq_some_iff.mp h
  obtain ⟨hlength, hprocess, hfiles⟩ := vfsTransfer_eq hvfs
  have hprocess' : s'.process = s.process := hprocess
  cases heq
  refine ⟨rfl, hlength, hfiles, ?_⟩
  simp only [hprocess']

theorem sysTransfer_refused
    {fuel : Nat} {permission : Half} {errcode beyond code : Int} {s : State} {desc : Half}
    {buf amount offset : Word} {r : Result}
    (hrefused : s.refuses desc permission (-1) errcode = some code)
    (h : sysTransfer permission errcode (vfsTransfer disks fuel beyond action) s desc buf
      amount offset = some r) :
    r = ⟨.error code, s, []⟩ := by
  unfold sysTransfer at h
  rw [hrefused] at h
  exact (Option.some.inj h).symm

end Requests

section Steps

variable {disks : Disks} {errcode : Int} {s s' : StreamState} {op : StreamOp} {r : Result}

theorem StreamOp.run_eq (disks : Disks) (errcode : Int) (fuel : Nat) (s : State)
    (op : StreamOp) :
    ∃ action, op.run disks errcode fuel s =
      sysTransfer op.permission errcode (vfsTransfer disks fuel op.beyond action) s op.desc
        op.buf op.amount op.offset := by
  cases op with
  | read descriptor buf amount offset => exact ⟨.READ, rfl⟩
  | write desc buf amount offset => exact ⟨.WRITE, rfl⟩

/-- One page is the one size that is moved as it is asked for. -/
theorem pageLength_eq_iff
    {file : Meta} {beyond : Int} {position : Word} (amount : Word)
    (hdata : noData file position beyond = none) :
    pageLength file beyond position amount = amount.toNat ↔ amount = 4096 := by
  have hpage : (4096 : Word).toNat = 4096 := rfl
  unfold pageLength
  rw [hdata]
  by_cases hamount : amount = 4096
  · subst hamount
    exact iff_of_true (by decide) rfl
  · refine iff_of_false (fun h => ?_) hamount
    split_ifs at h with hmoves
    · exact hamount (BitVec.eq_of_toNat_eq (h.symm.trans hpage.symm))
    · have hzero : amount = 0 := BitVec.eq_of_toNat_eq h.symm
      subst hzero
      exact hmoves ⟨rfl, by decide⟩

/-- The positions after a call that is let through. -/
theorem file_offset_of_passed
    (hpass : s.state.refuses op.desc op.permission (-1) errcode = none)
    {fuel : Nat}
    (hrun : op.run disks errcode fuel s.state = some r)
    (i : Nat) :
    (r.state.process.descs i).file_offset =
      if op.offset = 0 ∧ i = op.desc.toNat then
        (s.state.process.descs i).file_offset + op.amount
      else (s.state.process.descs i).file_offset := by
  obtain ⟨action, haction⟩ := op.run_eq disks errcode fuel s.state
  rw [haction] at hrun
  obtain ⟨_, _, _, hprocess⟩ := sysTransfer_eq hpass hrun
  rw [hprocess]
  dsimp only
  by_cases hstream : op.offset = 0
  · rw [if_pos hstream]
    by_cases hi : i = op.desc.toNat
    · subst hi
      rw [Function.update_self, if_pos ⟨hstream, rfl⟩]
    · rw [Function.update_of_ne hi, if_neg fun h => hi h.2]
  · rw [if_neg hstream, if_neg fun h => hstream h.1]

/-- And their record, when the call does not fail in `Virtual_fs` either. -/
theorem recorded_of_passed
    (hpass : s.state.refuses op.desc op.permission (-1) errcode = none)
    (hdata : noData (s.state.fileOf op.desc) (s.state.position op.desc op.offset) op.beyond =
      none)
    (i : Nat) :
    recorded errcode s op r i =
      if op.offset = 0 ∧ i = op.desc.toNat then s.transferred i + r.accessed.length
      else s.transferred i := by
  unfold recorded
  rw [hpass, hdata]
  by_cases hstream : op.offset = 0
  · rw [if_pos ⟨hstream, rfl, rfl⟩]
    by_cases hi : i = op.desc.toNat
    · subst hi
      rw [Function.update_self, if_pos ⟨hstream, rfl⟩]
    · rw [Function.update_of_ne hi, if_neg fun h => hi h.2]
  · rw [if_neg fun h => hstream h.1, if_neg fun h => hstream h.1]

theorem refused_iff :
    op.Refused errcode s.state ↔
      ∃ code, s.state.refuses op.desc op.permission (-1) errcode = some code :=
  Option.ne_none_iff_exists'

/-- A call that is refused is right. -/
theorem streamStep_refused
    (hs : OffsetsExact s)
    (hrefused : op.Refused errcode s.state)
    (hstep : StreamStep disks errcode s (op, r) s') :
    OffsetsExact s' ∧ CallRight errcode s (op, r) s' := by
  obtain ⟨⟨fuel, hrun⟩, rfl⟩ := hstep
  obtain ⟨action, haction⟩ := op.run_eq disks errcode fuel s.state
  obtain ⟨code, hcode⟩ := refused_iff.mp hrefused
  have hsame : r = ⟨.error code, s.state, []⟩ :=
    sysTransfer_refused hcode (haction.symm.trans hrun)
  subst hsame
  have hrecord : recorded errcode s op ⟨.error code, s.state, []⟩ = s.transferred := by
    rw [recorded, hcode]
    simp
  refine ⟨fun i => ?_, fun _ => ⟨code, rfl⟩, fun h => absurd hrefused h⟩
  rw [hrecord]
  exact hs i

/-- A call that `Virtual_fs` fails is not. -/
theorem not_callRight_of_vfsFails
    (hpass : ¬ op.Refused errcode s.state)
    (hfails : op.VfsFails s.state)
    (hstep : StreamStep disks errcode s (op, r) s') :
    ¬ CallRight errcode s (op, r) s' := by
  obtain ⟨⟨fuel, hrun⟩, rfl⟩ := hstep
  obtain ⟨action, haction⟩ := op.run_eq disks errcode fuel s.state
  obtain ⟨hvalue, _⟩ := sysTransfer_eq (not_not.mp hpass) (haction.symm.trans hrun)
  intro hright
  obtain ⟨code, herror⟩ := hright.failed (Or.inr hfails)
  cases hvalue.symm.trans herror

/-- A call that goes through is right when it asks for one page, and there is room for
the position. -/
theorem streamStep_passed
    (hs : OffsetsExact s)
    (hpass : ¬ op.Refused errcode s.state)
    (hdata : ¬ op.VfsFails s.state)
    (hstep : StreamStep disks errcode s (op, r) s') :
    OffsetsExact s' ∧ CallRight errcode s (op, r) s' ↔
      op.amount = 4096 ∧ (op.offset = 0 →
        (s.state.process.descs op.desc.toNat).file_offset.toNat + 4096 < 2 ^ 64) := by
  obtain ⟨⟨fuel, hrun'⟩, rfl⟩ := hstep
  have hrun : op.run disks errcode fuel s.state = some r := hrun'
  obtain ⟨action, haction⟩ := op.run_eq disks errcode fuel s.state
  have hcode := not_not.mp hpass
  have hnone := not_not.mp hdata
  obtain ⟨hvalue, hlength, _, _⟩ := sysTransfer_eq hcode (haction.symm.trans hrun)
  have hoffset := file_offset_of_passed hcode hrun
  have hrecord := recorded_of_passed (r := r) hcode hnone
  have hmoved := pageLength_eq_iff op.amount hnone
  have hpage : (4096 : Word).toNat = 4096 := rfl
  constructor
  · rintro ⟨hexact, hright⟩
    have hreturned : r.sys_retval = .ok r.accessed.length := hright.done hpass hdata
    rw [hvalue, hlength] at hreturned
    have hamount : op.amount = 4096 :=
      hmoved.mp (by exact_mod_cast (Except.ok.inj hreturned).symm)
    refine ⟨hamount, fun hstream => ?_⟩
    have hdesc : (r.state.process.descs op.desc.toNat).file_offset.toNat =
        recorded errcode s op r op.desc.toNat := hexact op.desc.toNat
    rw [hoffset, hrecord, if_pos ⟨hstream, rfl⟩, if_pos ⟨hstream, rfl⟩, hlength,
      hmoved.mpr hamount, hamount, BitVec.toNat_add, hpage, hs op.desc.toNat] at hdesc
    rw [hs op.desc.toNat, ← hdesc]
    exact Nat.mod_lt _ (by decide)
  · rintro ⟨hamount, hroom⟩
    refine ⟨fun i => ?_, fun h => ?_, fun _ _ => ?_⟩
    · change (r.state.process.descs i).file_offset.toNat = recorded errcode s op r i
      rw [hoffset, hrecord]
      split_ifs with hstream
      · obtain ⟨hzero, rfl⟩ := hstream
        rw [hlength, hmoved.mpr hamount, hamount, BitVec.toNat_add, hpage,
          Nat.mod_eq_of_lt (hroom hzero), hs op.desc.toNat]
      · exact hs i
    · exact absurd h (not_or.mpr ⟨hpass, hdata⟩)
    · change r.sys_retval = .ok r.accessed.length
      rw [hvalue, hlength, hmoved.mpr hamount]

theorem streamStep_iff
    (hs : OffsetsExact s)
    (hstep : StreamStep disks errcode s (op, r) s') :
    OffsetsExact s' ∧ CallRight errcode s (op, r) s' ↔ StreamSafe errcode s (op, r) := by
  by_cases hrefused : op.Refused errcode s.state
  · exact iff_of_true (streamStep_refused hs hrefused hstep) (Or.inl hrefused)
  · by_cases hfails : op.VfsFails s.state
    · refine iff_of_false (fun h => ?_) fun h => ?_
      · exact not_callRight_of_vfsFails hrefused hfails hstep h.2
      · exact (h.resolve_left hrefused).1 hfails
    · rw [streamStep_passed hs hrefused hfails hstep, StreamSafe, or_iff_right hrefused,
        and_iff_right hfails]

end Steps

section Positions

variable {file : Meta} {position amount : Word} {sizes : List Word}

theorem pagesMoved_append (before sizes : List Word) :
    pagesMoved file position (before ++ sizes) =
      pagesMoved file position before ++ pagesMoved file (position + before.sum) sizes := by
  induction before generalizing position with
  | nil => simp [pagesMoved]
  | cons amount before ih =>
      rw [List.cons_append, pagesMoved, pagesMoved, ih, List.append_assoc, List.sum_cons,
        BitVec.add_assoc]

theorem pagesMoved_cons_of_not
    (hstays : ¬ MovesPage file position amount) :
    pagesMoved file position (amount :: sizes) = pagesMoved file (position + amount) sizes := by
  rw [pagesMoved, if_neg hstays, List.nil_append]

theorem pagesMoved_cons_of_moves
    (hmoves : MovesPage file position amount) :
    pagesMoved file position (amount :: sizes) =
      position :: pagesMoved file (position + amount) sizes := by
  rw [pagesMoved, if_pos hmoves, List.singleton_append]

theorem pagesMoved_eq_nil_iff :
    pagesMoved file position sizes = [] ↔ NoneMoves file position sizes := by
  constructor
  · rintro hnone before amount after rfl hmoves
    rw [pagesMoved_append, pagesMoved_cons_of_moves hmoves, List.append_eq_nil_iff] at hnone
    exact absurd hnone.2 (List.cons_ne_nil _ _)
  · intro hnone
    induction sizes generalizing position with
    | nil => rfl
    | cons amount sizes ih =>
        have hfirst : ¬ MovesPage file position amount := by
          simpa using hnone [] amount sizes rfl
        rw [pagesMoved_cons_of_not hfirst]
        refine ih fun before next after hsizes => ?_
        rw [BitVec.add_assoc, ← List.sum_cons]
        exact hnone (amount :: before) next after (by rw [hsizes, List.cons_append])

theorem pagesMoved_eq_singleton_iff :
    pagesMoved file position sizes = [position] ↔ OneMoves file position sizes := by
  constructor
  · -- the first read that moves a page is the one
    have hfirst : ∀ before sizes, NoneMoves file position before →
        pagesMoved file (position + List.sum before) sizes = [position] →
          OneMoves file position (before ++ sizes) := by
      intro before sizes
      induction sizes generalizing before with
      | nil => exact fun _ hone => nomatch hone
      | cons amount sizes ih =>
          intro hbefore hone
          by_cases hmoves : MovesPage file (position + before.sum) amount
          · rw [pagesMoved_cons_of_moves hmoves] at hone
            obtain ⟨hposition, hrest⟩ := List.cons.inj hone
            have hsum : before.sum = 0 := by simpa using hposition
            rw [hposition] at hmoves hrest
            exact ⟨before, amount, sizes, rfl, hsum, hbefore, hmoves,
              pagesMoved_eq_nil_iff.mp hrest⟩
          · rw [pagesMoved_cons_of_not hmoves] at hone
            rw [← List.singleton_append, ← List.append_assoc]
            refine ih (before ++ [amount]) ?_ (by simpa [BitVec.add_assoc] using hone)
            rw [← pagesMoved_eq_nil_iff] at hbefore ⊢
            rw [pagesMoved_append, hbefore, List.nil_append, pagesMoved_cons_of_not hmoves]
            rfl
    intro hone
    exact hfirst [] sizes (pagesMoved_eq_nil_iff.mp rfl) (by simpa using hone)
  · rintro ⟨before, amount, after, rfl, hsum, hbefore, hmoves, hafter⟩
    rw [← pagesMoved_eq_nil_iff] at hbefore hafter
    have hstart : position + before.sum = position := by
      rw [hsum]
      exact BitVec.add_zero position
    rw [pagesMoved_append, hbefore, hstart, pagesMoved_cons_of_moves hmoves, hafter,
      List.nil_append]

/-- Reads move the pages that one read of all their bytes moves. -/
theorem pagesMoved_eq_sum_iff :
    pagesMoved file position sizes = pagesMoved file position [sizes.sum] ↔
      if MovesPage file position sizes.sum then OneMoves file position sizes
      else NoneMoves file position sizes := by
  split_ifs with hmoves
  · rw [pagesMoved_cons_of_moves hmoves, pagesMoved, pagesMoved_eq_singleton_iff]
  · rw [pagesMoved_cons_of_not hmoves, pagesMoved, pagesMoved_eq_nil_iff]

end Positions

section Composition

variable {disks : Disks} {errcode : Int} {s : State} {desc : Half}

/-- What a stream read that is let through leaves, and what it delivers. -/
theorem sysRead_passed
    {fuel : Nat} {buf amount : Word} {r : Result}
    (hpass : s.refuses desc READ (-1) errcode = none)
    (hread : sysRead disks fuel errcode s desc buf amount 0 = some r) :
    r.state.refuses desc READ (-1) errcode = none ∧ r.state.fileOf desc = s.fileOf desc ∧
      r.state.position desc 0 = s.position desc 0 + amount ∧
      deliveredBy s desc r =
        (pagesMoved (s.fileOf desc) (s.position desc 0) [amount]).flatMap
          (flatRange · 4096) := by
  obtain ⟨_, hlength, hfiles, hprocess⟩ := sysTransfer_eq hpass hread
  have hfile : r.state.fileOf desc = s.fileOf desc := by
    unfold State.fileOf
    rw [hfiles, hprocess]
    simp
  refine ⟨?_, hfile, ?_, ?_⟩
  · unfold State.refuses at hpass ⊢
    rw [hfile, hprocess]
    exact hpass
  · unfold State.position
    rw [hprocess]
    simp
  · rw [deliveredBy, hlength, pagesMoved, pagesMoved, List.append_nil]
    by_cases hmoves : MovesPage (s.fileOf desc) (s.position desc 0) amount
    · have hmoved : pageLength (s.fileOf desc) 3 (s.position desc 0) amount = 4096 :=
        if_pos hmoves
      rw [hmoved, if_pos hmoves]
      simp
    · have hmoved : pageLength (s.fileOf desc) 3 (s.position desc 0) amount = 0 :=
        if_neg hmoves
      rw [hmoved, if_neg hmoves]
      rfl

/-- A read of less than a page returns at once. -/
theorem sysRead_short
    {disks : Disks} {errcode : Int} {s : State} {desc : Half} {buf amount offset : Word}
    (hnone : (pagetypeRoundup amount walkedPagetype).setWidth 32 = (0 : Half))
    (fuel : Nat) :
    ∃ r, sysRead disks (fuel + 1) errcode s desc buf amount offset = some r := by
  unfold sysRead vfsRead sysTransfer
  cases s.refuses desc READ (-1) errcode with
  | some code => exact ⟨_, rfl⟩
  | none =>
      unfold vfsTransfer vfsBy diskRequest
      dsimp only
      rw [hnone, Loops.run_exit (diskRound_exit (t := ⟨0, _, _, []⟩) (BitVec.lt_irrefl _)) fuel]
      cases noData ((s.translate buf).1.fileOf desc) ((s.translate buf).1.position desc offset) 3
        with
      | some code => exact ⟨_, rfl⟩
      | none => exact ⟨_, rfl⟩

/-- The bytes delivered are those of the pages moved. -/
theorem StreamReads.delivered_eq
    {sizes delivered : List Word}
    (hpass : s.refuses desc READ (-1) errcode = none)
    (h : StreamReads disks errcode desc s sizes delivered) :
    delivered =
      (pagesMoved (s.fileOf desc) (s.position desc 0) sizes).flatMap (flatRange · 4096) := by
  induction h with
  | nil s => rfl
  | cons hread hrest ih =>
      obtain ⟨hpass', hfile, hposition, hdelivered⟩ := sysRead_passed hpass hread
      rw [ih hpass', hfile, hposition, hdelivered, pagesMoved, pagesMoved, pagesMoved,
        List.append_nil, List.flatMap_append]

/-- A read that is refused delivers nothing. -/
theorem StreamReads.delivered_of_refused
    {sizes delivered : List Word} {code : Int}
    (hrefused : s.refuses desc READ (-1) errcode = some code)
    (h : StreamReads disks errcode desc s sizes delivered) :
    delivered = [] := by
  induction h with
  | nil s => rfl
  | cons hread hrest ih =>
      have hsame := sysTransfer_refused hrefused hread
      subst hsame
      rw [ih hrefused]
      rfl

theorem flatRange_page_inj
    {p q : Word}
    (h : flatRange p 4096 = flatRange q 4096) :
    p = q := by
  have hfirst := congrArg (fun l => l[0]?) h
  simp only [flatRange_getElem?, if_pos (show 0 < 4096 by decide)] at hfirst
  simpa using hfirst

/-- Different pages have different bytes. -/
theorem flatMap_pages_inj
    {ps qs : List Word}
    (h : ps.flatMap (flatRange · 4096) = qs.flatMap (flatRange · 4096)) :
    ps = qs := by
  have hlength : ∀ p : Word, (flatRange p 4096).length = 4096 := fun p => by
    simp [flatRange]
  induction ps generalizing qs with
  | nil =>
      cases qs with
      | nil => rfl
      | cons q qs =>
          have hnone := congrArg List.length h
          rw [List.flatMap_cons, List.length_append, hlength] at hnone
          simp at hnone
          omega
  | cons p ps ih =>
      cases qs with
      | nil =>
          have hnone := congrArg List.length h
          rw [List.flatMap_cons, List.length_append, hlength] at hnone
          simp at hnone
      | cons q qs =>
          rw [List.flatMap_cons, List.flatMap_cons] at h
          obtain ⟨hpage, hrest⟩ := List.append_inj h (by rw [hlength, hlength])
          rw [flatRange_page_inj hpage, ih hrest]

/-- **When reads one after the other deliver what one read delivers.** -/
theorem delivers_same_iff
    {sizes delivered : List Word} {fuel : Nat} {buf : Word} {r : Result}
    (hreads : StreamReads disks errcode desc s sizes delivered)
    (hread : sysRead disks fuel errcode s desc buf sizes.sum 0 = some r) :
    delivered = deliveredBy s desc r ↔ ComposeSafe errcode s desc sizes := by
  cases hcode : s.refuses desc READ (-1) errcode with
  | some code =>
      have hsame := sysTransfer_refused hcode hread
      subst hsame
      refine iff_of_true ?_ (Or.inl (by rw [hcode]; exact Option.some_ne_none code))
      rw [hreads.delivered_of_refused hcode]
      rfl
  | none =>
      obtain ⟨_, _, _, hdelivered⟩ := sysRead_passed hcode hread
      rw [hreads.delivered_eq hcode, hdelivered, ComposeSafe, hcode,
        or_iff_right (not_not_intro rfl), ← pagesMoved_eq_sum_iff]
      exact ⟨flatMap_pages_inj, fun h => by rw [h]⟩

end Composition

/-- **When streams advance by what is transferred.**  The calls of a run are right, and
the positions with them, exactly when each is refused or moves the one page that it asks
for; and reads one after the other deliver what one read delivers exactly when they move
the same pages, one at most. -/
theorem stream_offsets_iff
    {disks : Disks} {errcode : Int} {s : StreamState}
    {run : List ((StreamOp × Result) × StreamState)}
    (hrun : Run (StreamStep disks errcode) s run)
    (hs : OffsetsExact s) :
    (Always OffsetsExact s run ∧ EveryStep (CallRight errcode) s run ↔
      StepsMeet (StreamSafe errcode) s run) ∧
    ∀ desc sizes delivered fuel buf r,
      StreamReads disks errcode desc s.state sizes delivered →
      sysRead disks fuel errcode s.state desc buf sizes.sum 0 = some r →
      (delivered = deliveredBy s.state desc r ↔ ComposeSafe errcode s.state desc sizes) := by
  refine ⟨?_, fun _ _ _ _ _ _ hreads hread => delivers_same_iff hreads hread⟩
  refine always_and_everyStep_iff_stepsMeet ?_ hrun hs
  rintro t ⟨op, r⟩ t' ht hstep
  exact streamStep_iff ht hstep

/-- A process with one descriptor, which is at the start of a directory. -/
def openDirectory : State :=
  { nothingMapped with descriptions := fun _ => ⟨fun _ => 0, DIRECTORY, 0, 0, 0, 0⟩ }

/-- A file of two pages, where every entry of a page tree is signed and lies behind the one
before it. -/
def openFile : State :=
  { nothingMapped with
    words := fun a => setBit (a <<< 9) 56
    descriptions := fun _ => ⟨fun _ => 0, 1, 0, 0, 0, 8192⟩ }

/-- A read of a page is right, and it delivers with one of ten bytes behind it what one read of
all of them delivers. -/
theorem stream_offsets_openFile :
    ∃ first second both,
      sysRead idleDisks 2 (-2) openFile 0 4096 4096 0 = some first ∧
      sysRead idleDisks 2 (-2) first.state 0 4096 10 0 = some second ∧
      sysRead idleDisks 2 (-2) openFile 0 4096 4106 0 = some both ∧
      EveryStep (CallRight (-2)) ⟨openFile, fun _ => 0⟩
        [((.read 0 4096 4096 0, first),
          ⟨first.state, recorded (-2) ⟨openFile, fun _ => 0⟩ (.read 0 4096 4096 0) first⟩)] ∧
      deliveredBy openFile 0 first ++ (deliveredBy first.state 0 second ++ []) =
        deliveredBy openFile 0 both := by
  have hreads : ∃ first both,
      sysRead idleDisks 2 (-2) openFile 0 4096 4096 0 = some first ∧
      sysRead idleDisks 2 (-2) openFile 0 4096 4106 0 = some both :=
    ⟨_, _, rfl, rfl⟩
  obtain ⟨first, both, hfirst, hboth⟩ := hreads
  have hshort : ∃ second, sysRead idleDisks 2 (-2) first.state 0 4096 10 0 = some second :=
    sysRead_short (by decide) 1
  obtain ⟨second, hsecond⟩ := hshort
  have hrun : Run (StreamStep idleDisks (-2)) ⟨openFile, fun _ => 0⟩
      [((.read 0 4096 4096 0, first),
        ⟨first.state, recorded (-2) ⟨openFile, fun _ => 0⟩ (.read 0 4096 4096 0) first⟩)] :=
    .cons ⟨⟨2, hfirst⟩, rfl⟩ (.nil _)
  obtain ⟨hright, hcompose⟩ := stream_offsets_iff hrun fun _ => rfl
  have hroom : (openFile.process.descs 0).file_offset.toNat + 4096 < 2 ^ 64 := by decide
  have hsafe : StreamSafe (-2) ⟨openFile, fun _ => 0⟩ (.read 0 4096 4096 0, first) :=
    Or.inr ⟨not_not.mpr rfl, rfl, fun _ => hroom⟩
  refine ⟨first, second, both, hfirst, hsecond, hboth, (hright.mpr ⟨hsafe, trivial⟩).2, ?_⟩
  refine (hcompose 0 [4096, 10] _ 2 4096 both
    (.cons hfirst (.cons hsecond (.nil _))) hboth).mpr (Or.inr ?_)
  rw [if_pos (by decide)]
  refine ⟨[], 4096, [10], rfl, rfl, pagesMoved_eq_nil_iff.mp rfl, by decide, ?_⟩
  exact pagesMoved_eq_nil_iff.mp (by decide)

/-- **A stream read of a directory transfers nothing, and counts as ten bytes.** -/
theorem directory_read_counted :
    ∃ r, sysRead idleDisks 1 (-2) openDirectory 0 4096 10 0 = some r ∧
      OffsetsExact ⟨openDirectory, fun _ => 0⟩ ∧
      r.accessed = [] ∧ r.sys_retval = .ok 10 ∧ (r.state.process.descs 0).file_offset = 10 ∧
      ∀ s', StreamStep idleDisks (-2) ⟨openDirectory, fun _ => 0⟩ (.read 0 4096 10 0, r) s' →
        ¬ OffsetsExact s' ∧ ¬ CallRight (-2) ⟨openDirectory, fun _ => 0⟩
          (.read 0 4096 10 0, r) s' := by
  refine ⟨_, rfl, fun _ => rfl, rfl, rfl, rfl, ?_⟩
  rintro s' ⟨_, rfl⟩
  constructor
  · intro hexact
    exact absurd (hexact 0) (by decide)
  · intro hright
    have hfails : (StreamOp.read 0 4096 10 0).VfsFails openDirectory := by
      unfold StreamOp.VfsFails
      decide
    obtain ⟨code, herror⟩ := hright.failed (Or.inr hfails)
    cases herror

end Syscalls
end BestKernel
