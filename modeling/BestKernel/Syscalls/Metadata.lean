import BestKernel.Library.LittleEndian
import BestKernel.Library.Runs
import BestKernel.Syscalls.UserBuffers

/-!
# Metadata of files

`SYS_CHMETA` replaces the name, the type and the mode of a file, and `SYS_STAT` copies the
whole structure out.  `stat_after_chmeta` says when the second succeeds behind the first, and
that a program which decodes the bytes finds what it has set.

The permission bit of a mode forbids: a call that needs the permission is refused, unless the
owner is root, when the bit is set.  `metadata_changes_iff` follows from it for every run of the
five calls: which files a run can change is settled before it starts, a file that was locked
once stays as it is, and no run moves a file or makes it longer.

Assumption.  The bytes that calls store, through the pointers of the caller, lie apart from the
pool of files: no call changes a file but through `descriptions`.
-/

namespace BestKernel
namespace Syscalls

open Machine Mem

section Decoding

/-- The structure that a program finds behind its pointer. -/
def Meta.decode (b : Nat → Byte) : Meta where
  name := b
  type := LittleEndian.join 32 (fun i => b (64 + i)) 4
  mode := LittleEndian.join 32 (fun i => b (68 + i)) 4
  partition := LittleEndian.join 32 (fun i => b (72 + i)) 4
  relpos := LittleEndian.join 64 (fun i => b (80 + i)) 8
  length := LittleEndian.join 64 (fun i => b (88 + i)) 8

/-- Two structures are the same, up to what lies beyond the name. -/
structure Meta.Agrees (m m' : Meta) : Prop where
  name : ∀ i, i < sizeofName → m.name i = m'.name i
  type : m.type = m'.type
  mode : m.mode = m'.mode
  partition : m.partition = m'.partition
  relpos : m.relpos = m'.relpos
  length : m.length = m'.length

/-- A field is decoded from the bytes that it has in memory. -/
theorem Meta.join_byte
    {w : Nat} {x : BitVec w} {m : Meta} {b : Nat → Byte} {offset n : Nat}
    (hb : ∀ i, i < sizeofMeta → b i = m.byte i)
    (hwidth : w ≤ 8 * n)
    (hend : offset + n ≤ sizeofMeta)
    (hx : ∀ i, i < n → m.byte (offset + i) = byteOf x i) :
    LittleEndian.join w (fun i => b (offset + i)) n = x := by
  refine LittleEndian.join_eq hwidth fun i hi => ?_
  have hinside : offset + i < sizeofMeta := by omega
  rw [hb _ hinside, hx i hi, byteOf]

/-- The structure is decoded from the bytes that it has in memory. -/
theorem Meta.decode_agrees
    {m : Meta} {b : Nat → Byte}
    (hb : ∀ i, i < sizeofMeta → b i = m.byte i) :
    (Meta.decode b).Agrees m where
  name i hi := by
    have hbyte := hb i (Nat.lt_trans hi (by decide))
    rw [Meta.byte, if_pos hi] at hbyte
    exact hbyte
  type := Meta.join_byte hb (by decide) (by decide) fun i hi => by
    rw [Meta.byte, if_neg (by omega), if_pos (by omega), Nat.add_sub_cancel_left]
  mode := Meta.join_byte hb (by decide) (by decide) fun i hi => by
    rw [Meta.byte, if_neg (by omega), if_neg (by omega), if_pos (by omega),
      Nat.add_sub_cancel_left]
  partition := Meta.join_byte hb (by decide) (by decide) fun i hi => by
    rw [Meta.byte, if_neg (by omega), if_neg (by omega), if_neg (by omega),
      if_pos (by omega), Nat.add_sub_cancel_left]
  relpos := Meta.join_byte hb (by decide) (by decide) fun i hi => by
    rw [Meta.byte, if_neg (by omega), if_neg (by omega), if_neg (by omega),
      if_neg (by omega), if_neg (by omega), if_pos (by omega), Nat.add_sub_cancel_left]
  length := Meta.join_byte hb (by decide) (by decide) fun i hi => by
    rw [Meta.byte, if_neg (by omega), if_neg (by omega), if_neg (by omega),
      if_neg (by omega), if_neg (by omega), if_neg (by omega), Nat.add_sub_cancel_left]

/-- Stored bytes are found where they were stored. -/
theorem storeBytes_stored
    (m : ByteMemory) (base : Word) (f : Nat → Byte) {n : Nat}
    (hn : n ≤ 2 ^ 64) :
    ∀ i, i < n → storeBytes m base f n (base + BitVec.ofNat 64 i) = f i := by
  induction n with
  | zero => exact fun i hi => absurd hi (Nat.not_lt_zero i)
  | succ n ih =>
      intro i hi
      rw [storeBytes]
      rcases Nat.lt_or_eq_of_le (Nat.le_of_lt_succ hi) with hlow | rfl
      · have hapart : base + BitVec.ofNat 64 i ≠ base + BitVec.ofNat 64 n := by
          intro hsame
          have hoffset := congrArg BitVec.toNat ((BitVec.add_right_inj base).mp hsame)
          rw [BitVec.toNat_ofNat, BitVec.toNat_ofNat, Nat.mod_eq_of_lt (by omega),
            Nat.mod_eq_of_lt (by omega)] at hoffset
          omega
        rw [Function.update_of_ne hapart]
        exact ih (by omega) i hlow
      · exact Function.update_self ..

end Decoding

section RoundTrip

variable {s : State} {desc : Half}

/-- The file that `SYS_CHMETA` leaves behind. -/
def State.renamed (s : State) (desc : Half) (name : Word) (type mode : Half) : Meta :=
  { s.fileOf desc with
    name := fun i => s.bytes (s.phys name + BitVec.ofNat 64 i)
    type := type
    mode := mode }

/-- A call that is not refused is on an open descriptor, and permitted or of root. -/
theorem refuses_eq_none_iff {permission : Half} {badDescriptor denied : Int} :
    s.refuses desc permission badDescriptor denied = none ↔
      (s.process.count > desc ∧ s.process.ckarray desc.toNat ≠ 0) ∧
        ((s.fileOf desc).mode &&& permission = 0 ∨ s.process.root = true) := by
  unfold State.refuses
  split_ifs with hclosed hdenied
  · exact iff_of_false (by simp) fun h => by
      rcases hclosed with hcount | hfree
      · exact hcount h.1.1
      · exact h.1.2 hfree
  · exact iff_of_false (by simp) fun h => by
      rcases h.2 with hpermitted | hroot
      · exact hdenied.1 hpermitted
      · exact hdenied.2 hroot
  · have hopen := not_or.mp hclosed
    have hpermitted := not_and_or.mp hdenied
    exact iff_of_true rfl
      ⟨⟨not_not.mp hopen.1, hopen.2⟩, hpermitted.imp not_not.mp not_not.mp⟩

/-- An accepted `SYS_CHMETA` leaves the process and the bytes alone. -/
theorem sysChmeta_accepted
    (hpass : s.refuses desc WRITE 1 2 = none)
    (name : Word) (type mode : Half) :
    (sysChmeta s desc name type mode).state =
      { (s.translate name).1 with
        descriptions :=
          Function.update s.descriptions (s.process.descs desc.toNat).findex
            (s.renamed desc name type mode) } := by
  unfold sysChmeta
  rw [hpass]
  rfl

/-- `SYS_STAT` succeeds when it is not refused and the pointer is translated. -/
theorem sysStat_ok_iff {returns : Word} :
    (sysStat s desc returns).sys_retval = .ok 0 ↔
      s.refuses desc WRITE 1 2 = none ∧ s.phys returns ≠ 0 := by
  unfold sysStat
  cases hrefuses : s.refuses desc WRITE 1 2 with
  | some code => exact iff_of_false (fun h => nomatch h) fun h => nomatch h.1
  | none =>
      change (if s.phys returns = 0 then _ else _ : Result).sys_retval = _ ↔ _
      split_ifs with hnull
      · exact iff_of_false (fun h => nomatch h) fun h => h.2 hnull
      · exact iff_of_true rfl ⟨rfl, hnull⟩

/-- What a `SYS_STAT` that succeeds stores. -/
theorem sysStat_bytes
    {returns : Word}
    (hok : (sysStat s desc returns).sys_retval = .ok 0) :
    (sysStat s desc returns).state.bytes =
      storeBytes s.bytes (s.phys returns) (s.fileOf desc).byte sizeofMeta := by
  obtain ⟨hpass, hnonnull⟩ := sysStat_ok_iff.mp hok
  have haccepted : (s.translate returns).2 ≠ 0 := hnonnull
  unfold sysStat
  rw [hpass]
  dsimp only
  rw [if_neg haccepted]
  rfl

/-- **Metadata that was set is read back.**  Behind an accepted `SYS_CHMETA`, `SYS_STAT`
succeeds when the new mode does not forbid it and the pointer is translated, and what it
stores is the file with the new name, type and mode. -/
theorem stat_after_chmeta
    {name returns : Word} {type mode : Half}
    (hpass : s.refuses desc WRITE 1 2 = none) :
    let changed := (sysChmeta s desc name type mode).state
    let stat := sysStat changed desc returns
    (stat.sys_retval = .ok 0 ↔
        (mode &&& WRITE = 0 ∨ s.process.root = true) ∧ changed.phys returns ≠ 0) ∧
      (stat.sys_retval = .ok 0 →
        (Meta.decode fun i =>
            stat.state.bytes (changed.phys returns + BitVec.ofNat 64 i)).Agrees
          (s.renamed desc name type mode)) := by
  intro changed stat
  have hchanged : changed = _ := sysChmeta_accepted hpass name type mode
  have hfile : changed.fileOf desc = s.renamed desc name type mode := by
    rw [hchanged]
    exact Function.update_self ..
  have hpasses : changed.refuses desc WRITE 1 2 = none ↔
      (mode &&& WRITE = 0 ∨ s.process.root = true) := by
    rw [refuses_eq_none_iff, hfile, hchanged]
    exact and_iff_right (refuses_eq_none_iff.mp hpass).1
  constructor
  · rw [← hpasses]
    exact sysStat_ok_iff
  · intro hok
    refine Meta.decode_agrees fun i hi => ?_
    rw [sysStat_bytes hok, hfile]
    exact storeBytes_stored _ _ _ (by decide) i hi

/-- In particular, where nothing is mapped. -/
theorem stat_after_chmeta_nothingMapped :
    let changed := (sysChmeta nothingMapped 0 8192#64 1 0).state
    let stat := sysStat changed 0 4096#64
    nothingMapped.refuses 0 WRITE 1 2 = none ∧
      (stat.sys_retval = .ok 0 ↔
          ((0 : Half) &&& WRITE = 0 ∨ nothingMapped.process.root = true) ∧
            changed.phys 4096#64 ≠ 0) ∧
        (stat.sys_retval = .ok 0 →
          (Meta.decode fun i =>
              stat.state.bytes (changed.phys 4096#64 + BitVec.ofNat 64 i)).Agrees
            (nothingMapped.renamed 0 8192#64 1 0)) := by
  have hpass : nothingMapped.refuses 0 WRITE 1 2 = none := by decide
  exact ⟨hpass, stat_after_chmeta hpass⟩

end RoundTrip

section Runs

variable (disks : Disks) (errcode : Int)

/-- A call whose loop ends. -/
def CallStep (s : State) (call : UserCall) (s' : State) : Prop :=
  ∃ fuel r, call.run disks errcode fuel s = some r ∧ r.state = s'

/-- What the calls leave alone about the caller. -/
structure State.SameCaller (s s' : State) : Prop where
  root : s'.process.root = s.process.root
  count : s'.process.count = s.process.count
  ckarray : s'.process.ckarray = s.process.ckarray
  findex : ∀ d, (s'.process.descs d).findex = (s.process.descs d).findex

/-- A file lies where another does, and is as long. -/
structure Meta.SamePlace (m m' : Meta) : Prop where
  partition : m.partition = m'.partition
  relpos : m.relpos = m'.relpos
  length : m.length = m'.length

/-- The caller has the file open, and is root or not kept from writing. -/
def State.MayChange (s : State) (k : Nat) : Prop :=
  (∃ desc : Half, (s.process.count > desc ∧ s.process.ckarray desc.toNat ≠ 0) ∧
      (s.process.descs desc.toNat).findex = k) ∧
    ((s.descriptions k).mode &&& WRITE = 0 ∨ s.process.root = true)

/-- What a call does at most. -/
structure CallEffect (s s' : State) : Prop where
  caller : s.SameCaller s'
  place : ∀ k, (s'.descriptions k).SamePlace (s.descriptions k)
  kept : ∀ k, s'.descriptions k = s.descriptions k ∨ s.MayChange k

variable {disks errcode} {s s' s'' : State}

theorem State.SameCaller.trans
    (h : s.SameCaller s')
    (h' : s'.SameCaller s'') :
    s.SameCaller s'' where
  root := h'.root.trans h.root
  count := h'.count.trans h.count
  ckarray := h'.ckarray.trans h.ckarray
  findex d := (h'.findex d).trans (h.findex d)

theorem Meta.SamePlace.trans
    {m m' m'' : Meta}
    (h : m.SamePlace m')
    (h' : m'.SamePlace m'') :
    m.SamePlace m'' where
  partition := h.partition.trans h'.partition
  relpos := h.relpos.trans h'.relpos
  length := h.length.trans h'.length

/-- A call that changes no file. -/
theorem CallEffect.of_descriptions
    (hcaller : s.SameCaller s')
    (hsame : s'.descriptions = s.descriptions) :
    CallEffect s s' where
  caller := hcaller
  place k := by
    rw [hsame]
    exact ⟨rfl, rfl, rfl⟩
  kept k := Or.inl (congrFun hsame k)

/-- A transfer changes memory only. -/
theorem vfsTransfer_frame
    {fuel : Nat} {beyond : Int} {action : DiskAction} {file : Meta}
    {buf amount offset : Word} {code : Int} {accessed : List Word}
    (h : vfsTransfer disks fuel beyond action s file buf amount offset =
      some (code, s', accessed)) :
    s'.process = s.process ∧ s'.descriptions = s.descriptions := by
  unfold vfsTransfer vfsBy at h
  split at h
  · cases h
    exact ⟨rfl, rfl⟩
  · obtain ⟨moved, _, hmoved⟩ := Option.map_eq_some_iff.mp h
    cases hmoved
    exact ⟨rfl, rfl⟩

theorem sysTransfer_effect
    {fuel : Nat} {permission : Half} {beyond : Int} {action : DiskAction}
    {desc : Half} {buf amount offset : Word} {r : Result}
    (h : sysTransfer permission errcode (vfsTransfer disks fuel beyond action)
      s desc buf amount offset = some r) :
    CallEffect s r.state := by
  unfold sysTransfer at h
  split at h
  · cases h
    exact CallEffect.of_descriptions ⟨rfl, rfl, rfl, fun _ => rfl⟩ rfl
  · dsimp only at h
    obtain ⟨⟨code, t, accessed⟩, hvfs, rfl⟩ := Option.map_eq_some_iff.mp h
    have hframe := vfsTransfer_frame hvfs
    have hprocess : t.process = s.process := hframe.1
    refine CallEffect.of_descriptions ⟨?_, ?_, ?_, fun d => ?_⟩ hframe.2
    · dsimp only
      rw [hprocess]
    · dsimp only
      rw [hprocess]
    · dsimp only
      rw [hprocess]
    · dsimp only
      rw [hprocess]
      split_ifs
      · rcases eq_or_ne d desc.toNat with rfl | hother
        · rw [Function.update_self]
        · rw [Function.update_of_ne hother]
      · rfl

theorem sysStat_effect (desc : Half) (returns : Word) :
    CallEffect s (sysStat s desc returns).state := by
  unfold sysStat
  split
  · exact CallEffect.of_descriptions ⟨rfl, rfl, rfl, fun _ => rfl⟩ rfl
  · change CallEffect s (if s.phys returns = 0 then _ else _ : Result).state
    split_ifs
    · exact CallEffect.of_descriptions ⟨rfl, rfl, rfl, fun _ => rfl⟩ rfl
    · exact CallEffect.of_descriptions ⟨rfl, rfl, rfl, fun _ => rfl⟩ rfl

theorem sysChmeta_effect (desc : Half) (name : Word) (type mode : Half) :
    CallEffect s (sysChmeta s desc name type mode).state := by
  cases hrefuses : s.refuses desc WRITE 1 2 with
  | some code =>
      unfold sysChmeta
      rw [hrefuses]
      exact CallEffect.of_descriptions ⟨rfl, rfl, rfl, fun _ => rfl⟩ rfl
  | none =>
      obtain ⟨hopen, hpermitted⟩ := refuses_eq_none_iff.mp hrefuses
      rw [sysChmeta_accepted hrefuses]
      refine ⟨⟨rfl, rfl, rfl, fun _ => rfl⟩, fun k => ?_, fun k => ?_⟩
      · rcases eq_or_ne k (s.process.descs desc.toNat).findex with rfl | hother
        · dsimp only
          rw [Function.update_self]
          exact ⟨rfl, rfl, rfl⟩
        · dsimp only
          rw [Function.update_of_ne hother]
          exact ⟨rfl, rfl, rfl⟩
      · rcases eq_or_ne k (s.process.descs desc.toNat).findex with rfl | hother
        · exact Or.inr ⟨⟨desc, hopen, rfl⟩, hpermitted⟩
        · exact Or.inl (Function.update_of_ne hother ..)

theorem sysChroot_effect (absolute_path : Word) :
    CallEffect s (sysChroot s absolute_path).state := by
  have hstate : (sysChroot s absolute_path).state = (s.translate absolute_path).1 := by
    unfold sysChroot
    dsimp only
    split_ifs
    · rfl
    · rfl
    · rfl
    · rfl
  rw [hstate]
  exact CallEffect.of_descriptions ⟨rfl, rfl, rfl, fun _ => rfl⟩ rfl

/-- What one call does. -/
theorem callStep_effect
    {call : UserCall}
    (h : CallStep disks errcode s call s') :
    CallEffect s s' := by
  obtain ⟨fuel, r, hrun, rfl⟩ := h
  cases call with
  | read descriptor buf amount offset => exact sysTransfer_effect hrun
  | write desc buf amount offset => exact sysTransfer_effect hrun
  | stat desc returns =>
      cases hrun
      exact sysStat_effect desc returns
  | chmeta desc name type mode =>
      cases hrun
      exact sysChmeta_effect desc name type mode
  | chroot absolute_path =>
      cases hrun
      exact sysChroot_effect absolute_path

/-- A file that the caller may not change when a run starts is not changed by it. -/
theorem metadata_of_run
    {run : List (UserCall × State)}
    (hrun : Runs.Run (CallStep disks errcode) s run) :
    Runs.Always
      (fun s' => s.SameCaller s' ∧
        ∀ k, (s'.descriptions k).SamePlace (s.descriptions k) ∧
          (¬ s.MayChange k → s'.descriptions k = s.descriptions k))
      s run := by
  refine Runs.always_of_preserved ?_ hrun
    ⟨⟨rfl, rfl, rfl, fun _ => rfl⟩, fun k => ⟨⟨rfl, rfl, rfl⟩, fun _ => rfl⟩⟩
  intro t call t' ⟨hcaller, hfiles⟩ hstep
  have heffect := callStep_effect hstep
  refine ⟨hcaller.trans heffect.caller, fun k => ?_⟩
  refine ⟨(heffect.place k).trans (hfiles k).1, fun hnot => ?_⟩
  have hsame := (hfiles k).2 hnot
  rcases heffect.kept k with hkept | ⟨⟨desc, hopen, hfile⟩, hpermitted⟩
  · exact hkept.trans hsame
  · rw [hcaller.count, hcaller.ckarray] at hopen
    rw [hcaller.findex] at hfile
    rw [hsame, hcaller.root] at hpermitted
    exact absurd ⟨⟨desc, hopen, hfile⟩, hpermitted⟩ hnot

variable (disks errcode) in
/-- A file that the caller may change is changed by one call. -/
theorem chmeta_changes
    {k : Nat}
    (h : s.MayChange k) :
    ∃ call s', CallStep disks errcode s call s' ∧ s'.descriptions k ≠ s.descriptions k := by
  obtain ⟨⟨desc, hopen, rfl⟩, hpermitted⟩ := h
  have hpass : s.refuses desc WRITE 1 2 = none :=
    refuses_eq_none_iff.mpr ⟨hopen, hpermitted⟩
  let mode := (s.fileOf desc).mode
  refine ⟨.chmeta desc 0 0 (~~~ mode), _, ⟨0, _, rfl, rfl⟩, ?_⟩
  rw [sysChmeta_accepted hpass]
  dsimp only
  rw [Function.update_self]
  intro hsame
  have hmode : ~~~ mode = mode := congrArg Meta.mode hsame
  have hbit := congrArg (fun m : Half => m.getLsbD 0) hmode
  simp at hbit

/-- **What runs of the calls can do to a file.**  None moves it or makes it longer, and one
changes its metadata if and only if the caller may change it when the run starts. -/
theorem metadata_changes_iff (s : State) (k : Nat) :
    (∀ run, Runs.Run (CallStep disks errcode) s run →
        Runs.Always (fun s' => (s'.descriptions k).SamePlace (s.descriptions k)) s run) ∧
      ((∃ run, Runs.Run (CallStep disks errcode) s run ∧
          ¬ Runs.Always (fun s' => s'.descriptions k = s.descriptions k) s run) ↔
        s.MayChange k) := by
  refine ⟨fun run hrun => (metadata_of_run hrun).mono fun t ht => (ht.2 k).1, ?_⟩
  constructor
  · rintro ⟨run, hrun, hchanged⟩
    by_contra hnot
    exact hchanged ((metadata_of_run hrun).mono fun t ht => (ht.2 k).2 hnot)
  · intro hmay
    obtain ⟨call, s', hstep, hchanged⟩ := chmeta_changes disks errcode hmay
    refine ⟨[(call, s')], .cons hstep (.nil s'), fun halways => ?_⟩
    exact hchanged (halways.2 (call, s') (by simp))

end Runs

end Syscalls
end BestKernel
