import BestKernel.Mem.Release
import BestKernel.Syscalls.UserBuffers

/-!
# The packets of a disk request

`disk_request` hands the driver of a disk packets of a position, a pointer and a number
of bytes.  They should tile the buffer (`TilesBuffer`), and what is mapped for a packet
should be unmapped behind it.

The inner loop compares the same two entries in every round, so a run of pages is none
or all of them.  For none the loop stays where it is and issues the same packet again;
for all one packet is issued, of one page.  And `mem_unmap` refuses what `mem_map` wrote.

The log of the packets is not part of the source.  The page that holds a packet is left
out: it is its mapping that is followed here.
-/

namespace BestKernel
namespace Syscalls

open Machine Mem

/-- What a round issues: the part of the buffer, the number of pages mapped for it, what the
driver is handed, and whether the pages were unmapped. -/
structure Issued where
  destination : Word
  pages : Half
  data : Packet
  released : Bool

section Rounds

variable (disks : Disks) (action : DiskAction) (part : Half) (reloff : Word)
variable (entry base : Word) (repetitions : Half)

/-- The packet of a round. -/
def issuedIn (s : Transfer) : Issued :=
  let atom := multiplierOf walkedPagetype
  let adjacent :=
    s.words (wordAt entry (s.g + 1).toNat) ==
      s.words (wordAt entry s.g.toNat) + atom.setWidth 64
  let l := streak adjacent repetitions.toNat 0
  let destination := base + (s.g * atom).setWidth 64
  let (found, words) :=
    memMap s.words (disks.pagetree part) destination walkedPagetype l.toNat
      Cache.WRITEBACK.code
  let data : Packet := ⟨disks.diskpos part + reloff, fetchedPointer found, atom⟩
  let (words, _) := disks.ioctl part action data words s.bytes
  let (done, _) := memUnmap words (disks.pagetree part) data.pointer l.toNat walkedPagetype
  ⟨destination, l, data, done⟩

/-- `diskRound` with the log of the packets. -/
def packetRound (s : Transfer × List Issued) :
    (Transfer × List Issued) ⊕ (Transfer × List Issued) :=
  match diskRound disks action part reloff entry base repetitions s.1 with
  | .inl t => .inl (t, s.2 ++ [issuedIn disks action part reloff entry base repetitions s.1])
  | .inr t => .inr (t, s.2)

end Rounds

section Requests

variable (disks : Disks) (action : DiskAction) (part : Half) (reloff : Word)
variable (pagetree destination bytes_number : Word) (words : WordMemory) (bytes : ByteMemory)

/-- The words behind the walk to the buffer, the entry it ends at, and the pages. -/
def requestWords : WordMemory := (vmtoEntry destination words pagetree).1

def requestEntry : Word := (vmtoEntry destination words pagetree).2

def requestRepetitions : Half := (pagetypeRoundup bytes_number walkedPagetype).setWidth 32

/-- `diskRequest` with the log of the packets. -/
def packetsOf (fuel : Nat) : Option (Transfer × List Issued) :=
  Loops.run
    (packetRound disks action part reloff (requestEntry pagetree destination words) destination
      (requestRepetitions bytes_number)) fuel
    (⟨0, requestWords pagetree destination words, bytes, []⟩, [])

/-- Page `j + 1` of the buffer lies behind page `j`. -/
def Adjacent (j : Nat) : Prop :=
  requestWords pagetree destination words
      (wordAt (requestEntry pagetree destination words) (j + 1)) =
    requestWords pagetree destination words
      (wordAt (requestEntry pagetree destination words) j) + 4096

/-- The packets from byte `covered` on are those of the buffer in order, at their positions
on the disk and contiguous in memory, and they end with its last byte. -/
def TilesBuffer : Nat → List Issued → Prop
  | covered, [] => covered = bytes_number.toNat
  | covered, p :: rest =>
      p.destination = destination + BitVec.ofNat 64 covered ∧
      p.data.position = disks.diskpos part + reloff + BitVec.ofNat 64 covered ∧
      (∀ j, (destination.toNat % 4096 + covered) / 4096 ≤ j →
        (j + 1) * 4096 < destination.toNat % 4096 + covered + p.data.bytes_number.toNat →
        Adjacent pagetree destination words j) ∧
      TilesBuffer (covered + p.data.bytes_number.toNat) rest

/-- The request ends and its packets tile the buffer. -/
def RequestTiles : Prop :=
  ∃ fuel t packets,
    packetsOf disks action part reloff pagetree destination bytes_number words bytes fuel =
      some (t, packets) ∧
    TilesBuffer disks part reloff pagetree destination bytes_number words 0 packets

/-- And nothing stays mapped. -/
def RequestRight : Prop :=
  ∃ fuel t packets,
    packetsOf disks action part reloff pagetree destination bytes_number words bytes fuel =
      some (t, packets) ∧
    TilesBuffer disks part reloff pagetree destination bytes_number words 0 packets ∧
    ∀ p, p ∈ packets → p.released = true

/-- The driver moves bytes and leaves the page trees alone. -/
def KeepsTrees : Prop :=
  ∀ packet words bytes, (disks.ioctl part action packet words bytes).1 = words

end Requests

section Spec

variable {disks : Disks} {action : DiskAction} {part : Half} {reloff : Word}
variable {entry base : Word} {repetitions : Half} {s : Transfer} {packets : List Issued}

/-- The log changes nothing. -/
theorem packetsOf_fst
    {pagetree destination bytes_number : Word} {words : WordMemory} {bytes : ByteMemory}
    (fuel : Nat) :
    (packetsOf disks action part reloff pagetree destination bytes_number words bytes fuel).map
        Prod.fst =
      diskRequest disks action part reloff fuel pagetree destination bytes_number words
        bytes := by
  have hrun : ∀ fuel (s : Transfer) (packets : List Issued),
      (Loops.run (packetRound disks action part reloff
          (requestEntry pagetree destination words) destination
          (requestRepetitions bytes_number)) fuel (s, packets)).map Prod.fst =
        Loops.run (diskRound disks action part reloff
          (requestEntry pagetree destination words) destination
          (requestRepetitions bytes_number)) fuel s := by
    intro fuel
    induction fuel with
    | zero => exact fun _ _ => rfl
    | succ fuel ih =>
        intro s packets
        rw [Loops.run, Loops.run, packetRound]
        cases diskRound disks action part reloff (requestEntry pagetree destination words)
          destination (requestRepetitions bytes_number) s with
        | inl t => exact ih t _
        | inr t => rfl
  exact hrun fuel _ _

/-- A round that has pages left issues its packet and moves on by its pages. -/
theorem packetRound_next
    (disks : Disks) (action : DiskAction) (part : Half) (reloff entry base : Word)
    (packets : List Issued)
    (hgo : s.g < repetitions) :
    ∃ t, t.g = s.g + (issuedIn disks action part reloff entry base repetitions s).pages ∧
      packetRound disks action part reloff entry base repetitions (s, packets) =
        .inl (t, packets ++ [issuedIn disks action part reloff entry base repetitions s]) := by
  rw [packetRound, diskRound, if_neg (not_not.mpr hgo)]
  exact ⟨_, rfl, rfl⟩

theorem packetRound_exit
    (hstop : ¬ s.g < repetitions) :
    packetRound disks action part reloff entry base repetitions (s, packets) =
      .inr (s, packets) := by
  rw [packetRound, diskRound_exit hstop]

/-- What was issued stays issued. -/
theorem issued_prefix
    {fuel : Nat} {t : Transfer} {issued : List Issued}
    (h : Loops.run (packetRound disks action part reloff entry base repetitions) fuel
      (s, packets) = some (t, issued)) :
    ∃ rest, issued = packets ++ rest := by
  refine Loops.run_invariant (I := fun s : Transfer × List Issued => ∃ rest, s.2 = packets ++ rest)
    (Q := fun r : Transfer × List Issued => ∃ rest, r.2 = packets ++ rest) ?_ ?_ ⟨[], by simp⟩ h
  · rintro ⟨u, log⟩ u' ⟨rest, hrest⟩ hround
    by_cases hgo : u.g < repetitions
    · obtain ⟨v, _, hnext⟩ := packetRound_next disks action part reloff entry base log hgo
      rw [hnext] at hround
      cases hround
      exact ⟨rest ++ [_], by rw [← List.append_assoc, ← hrest]⟩
    · rw [packetRound_exit hgo] at hround
      cases hround
  · rintro ⟨u, log⟩ r ⟨rest, hrest⟩ hround
    by_cases hgo : u.g < repetitions
    · obtain ⟨v, _, hnext⟩ := packetRound_next disks action part reloff entry base log hgo
      rw [hnext] at hround
      cases hround
    · rw [packetRound_exit hgo] at hround
      cases hround
      exact ⟨rest, hrest⟩

/-- The first two rounds, when the entries compared are not adjacent: one packet twice. -/
theorem issued_twice
    {fuel : Nat} {t : Transfer} {issued : List Issued}
    (hgo : s.g < repetitions)
    (hstay : (issuedIn disks action part reloff entry base repetitions s).pages = 0)
    (h : Loops.run (packetRound disks action part reloff entry base repetitions) fuel
      (s, []) = some (t, issued)) :
    ∃ q rest, issued =
        issuedIn disks action part reloff entry base repetitions s :: q :: rest ∧
      q.destination = (issuedIn disks action part reloff entry base repetitions s).destination := by
  cases fuel with
  | zero => cases h
  | succ fuel =>
      obtain ⟨u, hu, hfirst⟩ :=
        packetRound_next disks action part reloff entry base [] hgo
      replace hu : u.g = s.g := by simpa [hstay] using hu
      rw [Loops.run_next hfirst] at h
      cases fuel with
      | zero => cases h
      | succ fuel =>
          have hgo' : u.g < repetitions := hu ▸ hgo
          obtain ⟨v, _, hsecond⟩ := packetRound_next disks action part reloff entry base
            [issuedIn disks action part reloff entry base repetitions s] hgo'
          rw [List.nil_append, Loops.run_next hsecond] at h
          obtain ⟨rest, rfl⟩ := issued_prefix h
          refine ⟨_, rest, rfl, ?_⟩
          simp only [issuedIn]
          rw [hu]

/-- Entries that are adjacent: one packet, and all pages are done. -/
theorem issued_once
    (hstart : s.g = 0)
    (hgo : s.g < repetitions)
    (hall : (issuedIn disks action part reloff entry base repetitions s).pages = repetitions) :
    ∃ t, Loops.run (packetRound disks action part reloff entry base repetitions) 2 (s, []) =
      some (t, [issuedIn disks action part reloff entry base repetitions s]) := by
  obtain ⟨u, hu, hfirst⟩ := packetRound_next disks action part reloff entry base [] hgo
  have hdone : ¬ u.g < repetitions := by
    rw [hu, hall, hstart]
    simp
  exact ⟨u, by rw [Loops.run_next hfirst, Loops.run_exit (packetRound_exit hdone)]; rfl⟩

/-- With a driver that leaves the trees alone the pages of a packet stay mapped. -/
theorem issuedIn_released_iff
    (hkeeps : KeepsTrees disks action part) :
    (issuedIn disks action part reloff entry base repetitions s).released = true ↔
      (issuedIn disks action part reloff entry base repetitions s).pages = 0 := by
  simp only [issuedIn]
  rw [hkeeps, memMap_fst, fetchedPointer_vmtreeFetch]
  exact memUnmap_zero_memMap_iff _ _ _ _ walkedPagetype .WRITEBACK

end Spec

section First

variable (disks : Disks) (action : DiskAction) (part : Half) (reloff : Word)
variable (pagetree destination bytes_number : Word) (words : WordMemory) (bytes : ByteMemory)

/-- The packet of the first round. -/
def firstIssued : Issued :=
  issuedIn disks action part reloff (requestEntry pagetree destination words) destination
    (requestRepetitions bytes_number) ⟨0, requestWords pagetree destination words, bytes, []⟩

/-- It has all pages when the first two entries are adjacent, and none otherwise. -/
theorem firstIssued_pages :
    (Adjacent pagetree destination words 0 →
      (firstIssued disks action part reloff pagetree destination bytes_number words bytes).pages =
        requestRepetitions bytes_number) ∧
    (¬ Adjacent pagetree destination words 0 →
      (firstIssued disks action part reloff pagetree destination bytes_number words bytes).pages =
        0) := by
  have hatom : (multiplierOf walkedPagetype).setWidth 64 = (4096 : Word) := by decide
  have hone : (0 + 1 : Half).toNat = 0 + 1 := rfl
  have hzero : (0 : Half).toNat = 0 := rfl
  simp only [firstIssued, issuedIn]
  rw [streak_eq, hatom, hone, hzero, Adjacent]
  constructor
  · intro hadjacent
    rw [if_pos (beq_iff_eq.mpr hadjacent)]
    simp
  · intro hapart
    rw [if_neg fun h => hapart (beq_iff_eq.mp h)]

theorem firstIssued_fields :
    (firstIssued disks action part reloff pagetree destination bytes_number words
        bytes).destination = destination ∧
    (firstIssued disks action part reloff pagetree destination bytes_number words
        bytes).data.position = disks.diskpos part + reloff ∧
    (firstIssued disks action part reloff pagetree destination bytes_number words
        bytes).data.bytes_number.toNat = 4096 := by
  refine ⟨?_, rfl, rfl⟩
  simp [firstIssued, issuedIn]

/-- Alone, it tiles exactly one page. -/
theorem tilesBuffer_first_iff
    (hadjacent : Adjacent pagetree destination words 0) :
    TilesBuffer disks part reloff pagetree destination bytes_number words 0
        [firstIssued disks action part reloff pagetree destination bytes_number words bytes] ↔
      bytes_number = 4096 := by
  obtain ⟨hdestination, hposition, hlength⟩ :=
    firstIssued_fields disks action part reloff pagetree destination bytes_number words bytes
  simp only [TilesBuffer]
  rw [hdestination, hposition, hlength]
  constructor
  · rintro ⟨_, _, _, hend⟩
    have hpage : (4096 : Word).toNat = 4096 := rfl
    exact BitVec.eq_of_toNat_eq (by omega)
  · rintro rfl
    refine ⟨by simp, by simp, fun j hj hj' => ?_, rfl⟩
    have hzero : j = 0 := by omega
    subst hzero
    exact hadjacent

/-- Followed by a packet for the same part of the buffer, it tiles nothing. -/
theorem not_tilesBuffer_twice
    {q : Issued} {rest : List Issued}
    (hsame : q.destination =
      (firstIssued disks action part reloff pagetree destination bytes_number words
        bytes).destination) :
    ¬ TilesBuffer disks part reloff pagetree destination bytes_number words 0
        (firstIssued disks action part reloff pagetree destination bytes_number words bytes ::
          q :: rest) := by
  obtain ⟨hdestination, _, hlength⟩ :=
    firstIssued_fields disks action part reloff pagetree destination bytes_number words bytes
  rintro ⟨_, _, _, hnext, _⟩
  rw [hsame, hdestination, hlength] at hnext
  simp at hnext

/-- **A request that tiles its buffer issues one packet, for a buffer of one page whose
entry is adjacent to the next.** -/
theorem packets_of_tiles
    {fuel : Nat} {t : Transfer} {packets : List Issued}
    (hrun : packetsOf disks action part reloff pagetree destination bytes_number words bytes fuel =
      some (t, packets))
    (htiles : TilesBuffer disks part reloff pagetree destination bytes_number words 0 packets) :
    bytes_number = 4096 ∧ Adjacent pagetree destination words 0 ∧
      packets =
        [firstIssued disks action part reloff pagetree destination bytes_number words bytes] := by
  obtain ⟨hall, hnone⟩ :=
    firstIssued_pages disks action part reloff pagetree destination bytes_number words bytes
  by_cases hgo : 0 < requestRepetitions bytes_number
  · by_cases hadjacent : Adjacent pagetree destination words 0
    · have honce : ∃ u, packetsOf disks action part reloff pagetree destination bytes_number
          words bytes 2 = some (u, [firstIssued disks action part reloff pagetree destination
            bytes_number words bytes]) := issued_once rfl hgo (hall hadjacent)
      obtain ⟨u, honce⟩ := honce
      cases Loops.run_unique hrun honce
      exact ⟨(tilesBuffer_first_iff disks action part reloff pagetree destination bytes_number
        words bytes hadjacent).mp htiles, hadjacent, rfl⟩
    · obtain ⟨q, rest, rfl, hsame⟩ := issued_twice hgo (hnone hadjacent) hrun
      exact absurd htiles (not_tilesBuffer_twice disks action part reloff pagetree destination
        bytes_number words bytes hsame)
  · -- no page is asked for, so no packet is issued
    cases fuel with
    | zero => cases hrun
    | succ fuel =>
        rw [packetsOf, Loops.run_exit (packetRound_exit hgo)] at hrun
        cases hrun
        have hzero : bytes_number = 0 := BitVec.eq_of_toNat_eq htiles.symm
        subst hzero
        exact absurd (by decide) hgo

/-- And such a request does tile it. -/
theorem requestTiles_iff :
    RequestTiles disks action part reloff pagetree destination bytes_number words bytes ↔
      bytes_number = 4096 ∧ Adjacent pagetree destination words 0 := by
  constructor
  · rintro ⟨fuel, t, packets, hrun, htiles⟩
    obtain ⟨hpage, hadjacent, _⟩ := packets_of_tiles disks action part reloff pagetree
      destination bytes_number words bytes hrun htiles
    exact ⟨hpage, hadjacent⟩
  · rintro ⟨rfl, hadjacent⟩
    have hgo : 0 < requestRepetitions 4096 := by decide
    have honce : ∃ u, packetsOf disks action part reloff pagetree destination 4096 words bytes 2 =
        some (u, [firstIssued disks action part reloff pagetree destination 4096 words bytes]) :=
      issued_once rfl hgo
        ((firstIssued_pages disks action part reloff pagetree destination 4096 words bytes).1
          hadjacent)
    obtain ⟨u, honce⟩ := honce
    exact ⟨2, u, _, honce, (tilesBuffer_first_iff disks action part reloff pagetree destination
      4096 words bytes hadjacent).mpr rfl⟩

/-- **No disk request is right**: the pages mapped for its driver stay mapped.  Its packets
alone tile the buffer exactly when it is one page whose entry is adjacent to the next. -/
theorem disk_request_not_right
    (hkeeps : KeepsTrees disks action part) :
    ¬ RequestRight disks action part reloff pagetree destination bytes_number words bytes ∧
      (RequestTiles disks action part reloff pagetree destination bytes_number words bytes ↔
        bytes_number = 4096 ∧ Adjacent pagetree destination words 0) := by
  refine ⟨?_, requestTiles_iff disks action part reloff pagetree destination bytes_number words
    bytes⟩
  rintro ⟨fuel, t, packets, hrun, htiles, hreleased⟩
  obtain ⟨rfl, hadjacent, rfl⟩ := packets_of_tiles disks action part reloff pagetree
    destination bytes_number words bytes hrun htiles
  have hpages := (issuedIn_released_iff hkeeps).mp (hreleased _ (List.mem_singleton.mpr rfl))
  have hall := (firstIssued_pages disks action part reloff pagetree destination 4096 words
    bytes).1 hadjacent
  rw [firstIssued, hpages] at hall
  exact absurd hall (by decide)

end First

/-- 512 bytes are not written at all. -/
theorem disk_request_not_right_idle :
    ¬ RequestRight idleDisks .WRITE 0 0 8192 0x100000 512 (fun _ => 0) (fun _ => 0) :=
  (disk_request_not_right idleDisks .WRITE 0 0 8192 0x100000 512 (fun _ => 0) (fun _ => 0)
    fun _ _ _ => rfl).1

/-- **A sector is less than a page, and no packet is issued for it.** -/
theorem sector_not_transferred :
    ¬ RequestRight idleDisks .READ 0 0 8192 0x100000 512 (fun _ => 0) (fun _ => 0) := by
  rintro ⟨fuel, t, packets, hrun, htiles, _⟩
  have hpage := (packets_of_tiles idleDisks .READ 0 0 8192 0x100000 512 (fun _ => 0)
    (fun _ => 0) hrun htiles).1
  exact absurd hpage (by decide)

end Syscalls
end BestKernel
