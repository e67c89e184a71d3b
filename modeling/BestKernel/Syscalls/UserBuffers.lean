import BestKernel.Mem.Walk
import BestKernel.Syscalls.Files

/-!
# User buffers through the tree of the caller

`BuffersTranslated` says that every byte of a buffer is accessed at the address
that the tree of the caller gives for it, and that a call on a page that is not
mapped, or is supervisor only, fails and leaves memory alone.

The pointer is translated once, and the bytes behind it are taken to lie behind
its translation.  By `not_flat_of_four` no tree translates four addresses in a
row like that, so nothing but a path of up to three bytes is ever read where it
is.  `buffers_translated_iff` says exactly when the property holds.
-/

namespace BestKernel
namespace Syscalls

open Machine Mem

/-- A page is mapped: its entry is present, and its mode is not `SEGFAULT`. -/
def mapped (entry : Word) : Bool :=
  bitSet entry 0 && (entry >>> 9) &&& 7 != Mode.SEGFAULT.code.setWidth 64

/-- A page is mapped and does not carry the supervisor bit. -/
def State.accessible (s : State) (vm : Word) : Bool :=
  let entry := entryOf vm s.words s.process.pagetree
  entry != 0 && mapped (s.words entry) && ! bitSet (s.words entry) 2

/-- The address that the tree of the caller gives. -/
def State.phys (s : State) (vm : Word) : Word :=
  physOf s.words s.process.pagetree vm

/-- The calls, with their arguments. -/
inductive UserCall where
  | read (descriptor : Half) (buf amount offset : Word)
  | write (desc : Half) (buf : Word) (amount offset : Half)
  | stat (desc : Half) (returns : Word)
  | chmeta (desc : Half) (name : Word) (type mode : Half)
  | chroot (absolute_path : Word)

namespace UserCall

def pointer : UserCall → Word
  | read _ buf _ _ => buf
  | write _ buf _ _ => buf
  | stat _ returns => returns
  | chmeta _ name _ _ => name
  | chroot absolute_path => absolute_path

def run (disks : Disks) (errcode : Int) (fuel : Nat) (s : State) :
    UserCall → Option Result
  | read descriptor buf amount offset =>
      sysRead disks fuel errcode s descriptor buf amount offset
  | write desc buf amount offset => sysWrite disks fuel errcode s desc buf amount offset
  | stat desc returns => some (sysStat s desc returns)
  | chmeta desc name type mode => some (sysChmeta s desc name type mode)
  | chroot absolute_path => some (sysChroot s absolute_path)

/-- The number of bytes that a read or a write moves. -/
def transferLength (s : State) (desc permission : Half) (errcode beyond : Int)
    (amount offset : Word) : Nat :=
  if s.refuses desc permission (-1) errcode = none ∧
      noData (s.fileOf desc) (s.position desc offset) beyond = none then
    amount.toNat
  else 0

/-- The length of the buffer: 0 where the call is refused beforehand. -/
def length (errcode : Int) (s : State) : UserCall → Nat
  | read descriptor _ amount offset =>
      transferLength s descriptor READ errcode 3 amount offset
  | write desc _ amount offset =>
      transferLength s desc WRITE errcode 4 (amount.setWidth 64) (offset.setWidth 64)
  | stat desc _ => if s.refuses desc WRITE 1 2 = none then sizeofMeta else 0
  | chmeta desc _ _ _ => if s.refuses desc WRITE 1 2 = none then sizeofName else 0
  | chroot absolute_path => pathBytes s.bytes (s.phys absolute_path)

/-- Every page behind the buffer is accessible. -/
def Accessible (errcode : Int) (s : State) (call : UserCall) : Prop :=
  ∀ i, i < call.length errcode s → s.accessible (call.pointer + BitVec.ofNat 64 i) = true

end UserCall

/-- The translation of every byte, and failure where a page is not accessible. -/
def BuffersTranslated (disks : Disks) (errcode : Int) (s : State) (call : UserCall) :
    Prop :=
  (∀ i, i < call.length errcode s → call.Accessible errcode s →
    ∃ fuel r, call.run disks errcode fuel s = some r ∧
      r.accessed[i]? = some (s.phys (call.pointer + BitVec.ofNat 64 i))) ∧
  (¬ call.Accessible errcode s →
    ∃ fuel r, call.run disks errcode fuel s = some r ∧
      (∃ code, r.sys_retval = .error code) ∧ r.state = s)

/-- The bytes of a path lie behind the translation of the pointer to it.  No other
call gets its buffer right. -/
def Flat (s : State) : UserCall → Prop
  | .chroot absolute_path =>
      s.phys absolute_path ≠ 0 ∧
        ∀ i, i < pathBytes s.bytes (s.phys absolute_path) →
          s.phys (absolute_path + BitVec.ofNat 64 i) =
            s.phys absolute_path + BitVec.ofNat 64 i
  | _ => False

/-- The call fails, whatever the pages are. -/
def Fails (s : State) : UserCall → Prop
  | .stat _ returns => s.phys returns = 0
  | .chroot absolute_path =>
      s.phys absolute_path = 0 ∨
        pathEnd s.bytes (s.phys absolute_path) 4096 0 = none ∨ opens s 0
  | _ => False

/-- The condition: there is no byte, or all are where the call looks for them, or
the call fails anyway and its walk finds every entry signed. -/
def BuffersSafe (errcode : Int) (s : State) (call : UserCall) : Prop :=
  call.length errcode s = 0 ∨
    (call.Accessible errcode s ∧ Flat s call) ∨
    (¬ call.Accessible errcode s ∧ Fails s call ∧ (s.translate call.pointer).1 = s)

section FlatRange

theorem flatRange_getElem? (base : Word) (n i : Nat) :
    (flatRange base n)[i]? = if i < n then some (base + BitVec.ofNat 64 i) else none := by
  unfold flatRange
  split_ifs with hi
  · simp [hi]
  · simpa using hi

theorem of_flatRange_getElem?
    {base a : Word} {n i : Nat}
    (h : (flatRange base n)[i]? = some a) :
    a = base + BitVec.ofNat 64 i := by
  rw [flatRange_getElem?] at h
  split_ifs at h
  exact (Option.some.inj h).symm

end FlatRange

section DiskRequest

variable {disks : Disks} {action : DiskAction} {part : Half} {reloff : Word}

theorem streak_eq (adjacent : Bool) (left : Nat) (l : Half) :
    streak adjacent left l = if adjacent then l + BitVec.ofNat 32 left else l := by
  induction left generalizing l with
  | zero => simp [streak]
  | succ left ih =>
      rw [streak, ih]
      cases adjacent with
      | false => rfl
      | true =>
          rw [Nat.add_comm left 1, BitVec.ofNat_add, ← BitVec.add_assoc]
          rfl

/-- Either no page is found adjacent to the next, or all are. -/
theorem streak_cases (adjacent : Bool) (repetitions : Half) :
    streak adjacent repetitions.toNat 0 = 0 ∨
      streak adjacent repetitions.toNat 0 = repetitions := by
  rw [streak_eq]
  cases adjacent with
  | false => exact Or.inl rfl
  | true => exact Or.inr (by simp)

/-- What a round does to the index and to the addresses. -/
theorem diskRound_next
    {entry base : Word} {repetitions : Half} {t : Transfer}
    (hgo : t.g < repetitions) :
    ∃ l words bytes, (l = 0 ∨ l = repetitions) ∧
      diskRound disks action part reloff entry base repetitions t =
        .inl ⟨t.g + l, words, bytes, t.accessed ++ if l = 0 then []
          else flatRange (base + (t.g * multiplierOf walkedPagetype).setWidth 64) 4096⟩ := by
  unfold diskRound
  rw [if_neg (not_not.mpr hgo)]
  exact ⟨_, _, _, streak_cases _ _, rfl⟩

theorem diskRound_exit
    {entry base : Word} {repetitions : Half} {t : Transfer}
    (hstop : ¬ t.g < repetitions) :
    diskRound disks action part reloff entry base repetitions t = .inr t := by
  unfold diskRound
  rw [if_pos hstop]

/-- Nothing has been mapped yet, or all of it has. -/
def TransferKept (base : Word) (repetitions : Half) (t : Transfer) : Prop :=
  (t.g = 0 ∧ t.accessed = []) ∨
    (t.g = repetitions ∧ repetitions ≠ 0 ∧ t.accessed = flatRange base 4096)

theorem diskRound_kept
    {entry base : Word} {repetitions : Half} {t t' : Transfer}
    (h : TransferKept base repetitions t)
    (hround : diskRound disks action part reloff entry base repetitions t = .inl t') :
    TransferKept base repetitions t' := by
  by_cases hgo : t.g < repetitions
  · obtain ⟨l, words, bytes, hl, hnext⟩ := diskRound_next hgo
    rw [hnext] at hround
    cases hround
    rcases h with ⟨hg, haccessed⟩ | ⟨hg, _⟩
    · rw [hg] at hgo
      have hpos : repetitions ≠ 0 := by
        rintro rfl
        exact absurd hgo (by decide)
      rcases hl with rfl | rfl
      · left
        simp [hg, haccessed]
      · right
        refine ⟨by simp [hg], hpos, ?_⟩
        rw [haccessed, hg, if_neg hpos]
        simp
    · rw [hg] at hgo
      exact absurd hgo (BitVec.lt_irrefl _)
  · rw [diskRound_exit hgo] at hround
    cases hround

/-- The transfer ends when all is done, and as it stands. -/
theorem diskRound_left
    {entry base : Word} {repetitions : Half} {t t' : Transfer}
    (hround : diskRound disks action part reloff entry base repetitions t = .inr t') :
    ¬ t.g < repetitions ∧ t' = t := by
  by_cases hgo : t.g < repetitions
  · obtain ⟨_, _, _, _, hnext⟩ := diskRound_next hgo
    rw [hnext] at hround
    cases hround
  · rw [diskRound_exit hgo] at hround
    cases hround
    exact ⟨hgo, rfl⟩

/-- A disk request that returns has moved a page whenever it was to move anything. -/
theorem diskRequest_accessed_eq
    {fuel : Nat} {pagetree destination bytes_number : Word}
    {words : WordMemory} {bytes : ByteMemory} {t : Transfer}
    (h : diskRequest disks action part reloff fuel pagetree destination bytes_number
      words bytes = some t) :
    t.accessed =
      if (pagetypeRoundup bytes_number walkedPagetype).setWidth 32 = (0 : Half) then []
      else flatRange destination 4096 := by
  unfold diskRequest at h
  dsimp only at h
  generalize (pagetypeRoundup bytes_number walkedPagetype).setWidth 32 = repetitions at h ⊢
  have hend : TransferKept destination repetitions t ∧ ¬ t.g < repetitions := by
    refine Loops.run_invariant (I := TransferKept destination repetitions)
      (Q := fun t : Transfer => TransferKept destination repetitions t ∧ ¬ t.g < repetitions)
      (fun _ _ => diskRound_kept) ?_ (Or.inl ⟨rfl, rfl⟩) h
    intro u u' hu hround
    obtain ⟨hstop, rfl⟩ := diskRound_left hround
    exact ⟨hu, hstop⟩
  obtain ⟨hkept, hstop⟩ := hend
  rcases hkept with ⟨hg, hnone⟩ | ⟨_, hpos, hpage⟩
  · have hzero : repetitions = 0 := by
      rw [hg, BitVec.lt_def] at hstop
      have hnull : (0 : Half).toNat = 0 := rfl
      exact BitVec.eq_of_toNat_eq (by omega)
    rw [if_pos hzero]
    exact hnone
  · rw [if_neg hpos]
    exact hpage

/-- **A disk request offers the driver nothing, or one page.** -/
theorem diskRequest_accessed
    {fuel : Nat} {pagetree destination bytes_number : Word}
    {words : WordMemory} {bytes : ByteMemory} {t : Transfer}
    (h : diskRequest disks action part reloff fuel pagetree destination bytes_number
      words bytes = some t) :
    t.accessed = [] ∨
      ((pagetypeRoundup bytes_number walkedPagetype).setWidth 32 ≠ (0 : Half) ∧
        t.accessed = flatRange destination 4096) := by
  rw [diskRequest_accessed_eq h]
  split_ifs with hnone
  · exact Or.inl rfl
  · exact Or.inr ⟨hnone, rfl⟩

/-- Less than a page is rounded to nothing. -/
theorem pagetypeRoundup_of_lt
    {bytes_number : Word}
    (hpos : bytes_number.toNat ≠ 0)
    (hlt : bytes_number.toNat < 4096) :
    pagetypeRoundup bytes_number walkedPagetype = 0 := by
  have hdivider : (multiplierOf walkedPagetype).setWidth 64 = 4096#64 := by decide
  have hrem : bytes_number % 4096#64 ≠ 0 := by
    intro h
    have hnat := congrArg BitVec.toNat h
    rw [BitVec.toNat_umod] at hnat
    exact hpos (by simpa [Nat.mod_eq_of_lt hlt] using hnat)
  unfold pagetypeRoundup
  dsimp only
  rw [hdivider, if_pos hrem]
  apply BitVec.eq_of_toNat_eq
  rw [BitVec.toNat_udiv]
  exact Nat.div_eq_of_lt hlt

end DiskRequest

section Transfers

variable {disks : Disks} {errcode : Int} {s : State}

/-- Less than a page is not transferred at all. -/
theorem vfsTransfer_accessed
    {fuel : Nat} {beyond code : Int} {action : DiskAction} {file : Meta}
    {buf amount offset : Word} {s' : State} {accessed : List Word}
    (hdata : noData file offset beyond = none)
    (hpos : amount.toNat ≠ 0)
    (h : vfsTransfer disks fuel beyond action s file buf amount offset =
      some (code, s', accessed)) :
    accessed = [] ∨ (accessed = flatRange buf 4096 ∧ 4096 ≤ amount.toNat) := by
  unfold vfsTransfer vfsBy at h
  rw [hdata] at h
  dsimp only at h
  obtain ⟨t, ht, heq⟩ := Option.map_eq_some_iff.mp h
  cases heq
  rcases diskRequest_accessed ht with hnone | ⟨hrounds, hpage⟩
  · exact Or.inl hnone
  · refine Or.inr ⟨hpage, ?_⟩
    by_contra hlt
    rw [pagetypeRoundup_of_lt hpos (by omega)] at hrounds
    exact hrounds rfl

/-- A read or a write that is not refused succeeds, and moves a page or nothing. -/
theorem sysTransfer_returned
    {fuel : Nat} {permission : Half} {beyond : Int} {action : DiskAction}
    {desc : Half} {buf amount offset : Word} {r : Result}
    (hlength : UserCall.transferLength s desc permission errcode beyond amount offset ≠ 0)
    (h : sysTransfer permission errcode (vfsTransfer disks fuel beyond action)
      s desc buf amount offset = some r) :
    (∃ v, r.sys_retval = .ok v) ∧
      (r.accessed = [] ∨ (r.accessed = flatRange (s.phys buf) 4096 ∧
        4 ≤ UserCall.transferLength s desc permission errcode beyond amount offset)) := by
  unfold UserCall.transferLength at hlength ⊢
  split_ifs at hlength ⊢ with hpass
  · unfold sysTransfer at h
    rw [hpass.1] at h
    dsimp only at h
    obtain ⟨⟨code, s', accessed⟩, hvfs, heq⟩ := Option.map_eq_some_iff.mp h
    cases heq
    refine ⟨⟨_, rfl⟩, ?_⟩
    rcases vfsTransfer_accessed hpass.2 hlength hvfs with hnone | ⟨hpage, hlong⟩
    · exact Or.inl hnone
    · exact Or.inr ⟨hpage, by omega⟩
  · exact absurd rfl hlength

/-- A call that always succeeds, with a flat range of at least four bytes, does not
translate its buffer. -/
theorem not_translated_of_flat
    {call : UserCall}
    (hlength : call.length errcode s ≠ 0)
    (hreturned : ∀ fuel r, call.run disks errcode fuel s = some r →
      (∃ v, r.sys_retval = .ok v) ∧
        (r.accessed = [] ∨ ∃ n, r.accessed = flatRange (s.phys call.pointer) n ∧
          4 ≤ call.length errcode s)) :
    ¬ BuffersTranslated disks errcode s call := by
  rintro ⟨htranslated, hfailed⟩
  by_cases haccessible : call.Accessible errcode s
  · have hflat : ∀ i, i < call.length errcode s →
        4 ≤ call.length errcode s ∧
          s.phys (call.pointer + BitVec.ofNat 64 i) =
            s.phys call.pointer + BitVec.ofNat 64 i := by
      intro i hi
      obtain ⟨fuel, r, hrun, hbyte⟩ := htranslated i hi haccessible
      rcases (hreturned fuel r hrun).2 with hnone | ⟨n, hrange, hlong⟩
      · rw [hnone] at hbyte
        cases hbyte
      · rw [hrange] at hbyte
        exact ⟨hlong, of_flatRange_getElem? hbyte⟩
    have hlong := (hflat 0 (Nat.pos_of_ne_zero hlength)).1
    exact not_flat_of_four s.words s.process.pagetree call.pointer
      fun i hi => (hflat i (by omega)).2
  · obtain ⟨fuel, r, hrun, ⟨code, herror⟩, _⟩ := hfailed haccessible
    obtain ⟨⟨v, hok⟩, _⟩ := hreturned fuel r hrun
    rw [hok] at herror
    cases herror

/-- Without a byte there is nothing to translate. -/
theorem translated_of_length_zero
    {call : UserCall}
    (hlength : call.length errcode s = 0) :
    BuffersTranslated disks errcode s call := by
  refine ⟨fun i hi => ?_, fun hnot => absurd (fun i hi => ?_) hnot⟩
  · rw [hlength] at hi
    exact absurd hi (Nat.not_lt_zero i)
  · rw [hlength] at hi
    exact absurd hi (Nat.not_lt_zero i)

/-- The property, for a call that leaves behind the walk and its result alone. -/
theorem translated_iff_of_result
    {call : UserCall} {r : Result}
    (hrun : ∀ fuel, call.run disks errcode fuel s = some r)
    (hlength : call.length errcode s ≠ 0)
    (hstate : r.state = (s.translate call.pointer).1)
    (haccessed : r.accessed = if s.phys call.pointer = 0 then []
      else flatRange (s.phys call.pointer) (call.length errcode s)) :
    BuffersTranslated disks errcode s call ↔
      (call.Accessible errcode s ∧ s.phys call.pointer ≠ 0 ∧
        ∀ i, i < call.length errcode s →
          s.phys (call.pointer + BitVec.ofNat 64 i) =
            s.phys call.pointer + BitVec.ofNat 64 i) ∨
      (¬ call.Accessible errcode s ∧ (∃ code, r.sys_retval = .error code) ∧
        (s.translate call.pointer).1 = s) := by
  have hresult : ∀ fuel r', call.run disks errcode fuel s = some r' → r' = r :=
    fun fuel r' h => Option.some.inj (h.symm.trans (hrun fuel))
  constructor
  · rintro ⟨htranslated, hfailed⟩
    by_cases haccessible : call.Accessible errcode s
    · left
      have hbytes : ∀ i, i < call.length errcode s →
          r.accessed[i]? = some (s.phys (call.pointer + BitVec.ofNat 64 i)) := by
        intro i hi
        obtain ⟨fuel, r', hrun', hbyte⟩ := htranslated i hi haccessible
        rwa [hresult fuel r' hrun'] at hbyte
      have hnonnull : s.phys call.pointer ≠ 0 := by
        intro hnull
        have hfirst := hbytes 0 (Nat.pos_of_ne_zero hlength)
        rw [haccessed, if_pos hnull] at hfirst
        cases hfirst
      rw [if_neg hnonnull] at haccessed
      refine ⟨haccessible, hnonnull, fun i hi => ?_⟩
      have hbyte := hbytes i hi
      rw [haccessed] at hbyte
      exact of_flatRange_getElem? hbyte
    · right
      obtain ⟨fuel, r', hrun', herror, hsame⟩ := hfailed haccessible
      rw [hresult fuel r' hrun'] at herror hsame
      exact ⟨haccessible, herror, hstate.symm.trans hsame⟩
  · rintro (⟨haccessible, hnonnull, hflat⟩ | ⟨hnot, herror, hsame⟩)
    · refine ⟨fun i hi _ => ⟨0, r, hrun 0, ?_⟩, fun hnot => absurd haccessible hnot⟩
      rw [haccessed, if_neg hnonnull, flatRange_getElem?, if_pos hi, hflat i hi]
    · exact ⟨fun i _ haccessible => absurd haccessible hnot,
        fun _ => ⟨0, r, hrun 0, herror, hstate.trans hsame⟩⟩

end Transfers

section Calls

variable {disks : Disks} {errcode : Int} {s : State}

/-- `SYSREAD` and `SYSWRITE` get no byte right. -/
theorem transfer_not_translated
    {call : UserCall} {permission : Half} {beyond : Int} {action : DiskAction}
    {desc : Half} {amount offset : Word}
    (hrun : ∀ fuel, call.run disks errcode fuel s =
      sysTransfer permission errcode (vfsTransfer disks fuel beyond action) s desc
        call.pointer amount offset)
    (hbytes : call.length errcode s =
      UserCall.transferLength s desc permission errcode beyond amount offset)
    (hlength : call.length errcode s ≠ 0) :
    ¬ BuffersTranslated disks errcode s call := by
  refine not_translated_of_flat hlength fun fuel r hreturned => ?_
  rw [hrun] at hreturned
  rw [hbytes] at hlength ⊢
  obtain ⟨hok, hnone | ⟨hpage, hlong⟩⟩ := sysTransfer_returned hlength hreturned
  · exact ⟨hok, Or.inl hnone⟩
  · exact ⟨hok, Or.inr ⟨4096, hpage, hlong⟩⟩

/-- `SYS_CHMETA` does not either. -/
theorem chmeta_not_translated
    {desc : Half} {name : Word} {type mode : Half}
    (hpass : s.refuses desc WRITE 1 2 = none) :
    ¬ BuffersTranslated disks errcode s (.chmeta desc name type mode) := by
  have hlength : (UserCall.chmeta desc name type mode).length errcode s = sizeofName :=
    if_pos hpass
  refine not_translated_of_flat (by rw [hlength]; decide) fun fuel r hrun => ?_
  rw [hlength]
  cases hrun
  unfold sysChmeta
  rw [hpass]
  exact ⟨⟨_, rfl⟩, Or.inr ⟨sizeofName, rfl, by decide⟩⟩

/-- `SYS_STAT` is right about a null translation only. -/
theorem stat_translated_iff
    {desc : Half} {returns : Word}
    (hpass : s.refuses desc WRITE 1 2 = none) :
    BuffersTranslated disks errcode s (.stat desc returns) ↔
      ¬ (UserCall.stat desc returns).Accessible errcode s ∧ s.phys returns = 0 ∧
        (s.translate returns).1 = s := by
  have hlength : (UserCall.stat desc returns).length errcode s = sizeofMeta :=
    if_pos hpass
  by_cases hnull : s.phys returns = 0
  · have hresult : sysStat s desc returns = ⟨.error 2, (s.translate returns).1, []⟩ := by
      unfold sysStat
      rw [hpass]
      exact if_pos hnull
    rw [translated_iff_of_result (r := sysStat s desc returns) (fun _ => rfl)
      (by rw [hlength]; decide) (by rw [hresult]; rfl)
      (by rw [hresult]; exact (if_pos hnull).symm), hresult]
    constructor
    · rintro (⟨_, hnonnull, _⟩ | ⟨hnot, _, hsame⟩)
      · exact absurd hnull hnonnull
      · exact ⟨hnot, hnull, hsame⟩
    · rintro ⟨hnot, _, hsame⟩
      exact Or.inr ⟨hnot, ⟨_, rfl⟩, hsame⟩
  · refine iff_of_false (not_translated_of_flat (by rw [hlength]; decide) ?_) ?_
    · intro fuel r hrun
      rw [hlength]
      cases hrun
      have haccepted : (s.translate returns).2 ≠ 0 := hnull
      unfold sysStat
      rw [hpass]
      dsimp only
      rw [if_neg haccepted]
      exact ⟨⟨_, rfl⟩, Or.inr ⟨sizeofMeta, rfl, by decide⟩⟩
    · rintro ⟨_, hnull', _⟩
      exact hnull hnull'

/-- What `SYS_CHROOT` leaves behind. -/
theorem sysChroot_result (absolute_path : Word) :
    (sysChroot s absolute_path).state = (s.translate absolute_path).1 ∧
      ((sysChroot s absolute_path).accessed =
        if s.phys absolute_path = 0 then []
        else flatRange (s.phys absolute_path)
          (pathBytes s.bytes (s.phys absolute_path))) ∧
      ((∃ code, (sysChroot s absolute_path).sys_retval = .error code) ↔
        Fails s (.chroot absolute_path)) := by
  have hphys : (s.translate absolute_path).2 = s.phys absolute_path := rfl
  have hbytes : (s.translate absolute_path).1.bytes = s.bytes := rfl
  have hopens : opens (s.translate absolute_path).1 0 ↔ opens s 0 := Iff.rfl
  unfold sysChroot Fails
  dsimp only
  rw [hphys, hbytes]
  split_ifs with hnull hlong hopen
  · exact ⟨rfl, rfl, iff_of_true ⟨_, rfl⟩ (Or.inl hnull)⟩
  · exact ⟨rfl, rfl, iff_of_true ⟨_, rfl⟩ (Or.inr (Or.inl hlong))⟩
  · exact ⟨rfl, rfl, iff_of_true ⟨_, rfl⟩ (Or.inr (Or.inr (hopens.mp hopen)))⟩
  · refine ⟨rfl, rfl, iff_of_false ?_ ?_⟩
    · rintro ⟨code, herror⟩
      cases herror
    · rintro (hnull' | hlong' | hopen')
      · exact hnull hnull'
      · exact hlong hlong'
      · exact hopen (hopens.mpr hopen')

theorem chroot_translated_iff
    (absolute_path : Word) :
    BuffersTranslated disks errcode s (.chroot absolute_path) ↔
      BuffersSafe errcode s (.chroot absolute_path) := by
  obtain ⟨hstate, haccessed, hfails⟩ := sysChroot_result (s := s) absolute_path
  have hlength : (UserCall.chroot absolute_path).length errcode s ≠ 0 := by
    show pathBytes s.bytes (s.phys absolute_path) ≠ 0
    unfold pathBytes
    split
    · exact Nat.succ_ne_zero _
    · decide
  rw [translated_iff_of_result (fun _ => rfl) hlength hstate haccessed, hfails]
  unfold BuffersSafe
  exact (or_iff_right hlength).symm

/-- A call that neither has its buffer flat nor fails by itself. -/
theorem buffersSafe_iff_length
    {call : UserCall}
    (hflat : ¬ Flat s call)
    (hfails : ¬ Fails s call) :
    BuffersSafe errcode s call ↔ call.length errcode s = 0 := by
  constructor
  · rintro (hzero | ⟨_, hflat'⟩ | ⟨_, hfails', _⟩)
    · exact hzero
    · exact absurd hflat' hflat
    · exact absurd hfails' hfails
  · exact Or.inl

end Calls

/-- **Buffers are translated exactly under the condition.** -/
theorem buffers_translated_iff
    (disks : Disks) (errcode : Int) (s : State) (call : UserCall) :
    BuffersTranslated disks errcode s call ↔ BuffersSafe errcode s call := by
  by_cases hlength : call.length errcode s = 0
  · exact iff_of_true (translated_of_length_zero hlength) (Or.inl hlength)
  · cases call with
    | read descriptor buf amount offset =>
        rw [buffersSafe_iff_length id id]
        exact iff_of_false (transfer_not_translated (fun _ => rfl) rfl hlength) hlength
    | write desc buf amount offset =>
        rw [buffersSafe_iff_length id id]
        exact iff_of_false (transfer_not_translated (fun _ => rfl) rfl hlength) hlength
    | stat desc returns =>
        have hpass : s.refuses desc WRITE 1 2 = none := by
          by_contra hrefused
          exact hlength (if_neg hrefused)
        rw [stat_translated_iff hpass]
        unfold BuffersSafe
        simp [hlength, Flat, Fails, UserCall.pointer]
    | chmeta desc name type mode =>
        have hpass : s.refuses desc WRITE 1 2 = none := by
          by_contra hrefused
          exact hlength (if_neg hrefused)
        rw [buffersSafe_iff_length id id]
        exact iff_of_false (chmeta_not_translated hpass) hlength
    | chroot absolute_path => exact chroot_translated_iff absolute_path

/-- A process with one descriptor and nothing mapped, on disks that do nothing. -/
def nothingMapped : State where
  words := fun _ => 0
  bytes := fun _ => 0
  process := ⟨8192#64, 1, fun _ => 1, fun _ => ⟨0, 0⟩, true⟩
  descriptions := fun _ => ⟨fun _ => 0, 1, 0, 0, 0, 0⟩
  ckarray := fun _ => 1

def idleDisks : Disks :=
  ⟨fun _ => 0, fun _ => 0, fun _ _ _ words bytes => (words, bytes)⟩

/-- **`SYS_STAT` succeeds where nothing is mapped.** -/
theorem stat_nothingMapped :
    nothingMapped.accessible 4096#64 = false ∧
      (sysStat nothingMapped 0 4096#64).sys_retval = .ok 0 ∧
      ¬ BuffersTranslated idleDisks (-2) nothingMapped (.stat 0 4096#64) := by
  have hpass : nothingMapped.refuses 0 WRITE 1 2 = none := by decide
  have hphys : nothingMapped.phys 4096#64 ≠ 0 := by
    unfold State.phys
    rw [physOf_eq]
    decide
  have haccepted : (nothingMapped.translate 4096#64).2 ≠ 0 := hphys
  refine ⟨by decide, ?_, ?_⟩
  · unfold sysStat
    rw [hpass]
    dsimp only
    rw [if_neg haccepted]
  · rw [stat_translated_iff hpass]
    rintro ⟨_, hnull, _⟩
    exact hphys hnull

end Syscalls
end BestKernel
