import BestKernel.Library.Runs
import BestKernel.Library.Words
import Mathlib.Data.Finset.Basic
import Mathlib.Data.List.Range
import Mathlib.Tactic.Common

/-!
# Bringing up the application processors

The boot processor runs `initialize_brothers`: it wakes the others, and tells each one that
its loop names the digits of its own id, a vector a digit.  An application processor adds
the digits up in `cr5`, and asks for its data once the offset in `cr9` is 64.

The processors take the interrupts that reach them one at a time, those of one sender in
their order.  `handshake_delivers_iff` says for which processors the handshake is right:
the boot processor sends two digits and the others wait for sixteen, so there must be
no others.

Readings of the source.  Ids have eight bits, and `get_processor_id` gives the id itself.
`rotateRight` turns the eight bits of its operand; where its value is dropped it does
nothing.  In `templ_receive_info` the variable `a` is what `%rax` is left with, the new
offset.  `serve_data` sends its action to all; the id that it finds in `cr15` names nobody.
The timer ends every `halt` of the loop, and `remote_read` sends nothing, so these are left
out, as are `cr6` and `cr13`, which are written only.  A message in startup mode starts a
processor and leaves its registers alone.
-/

namespace BestKernel
namespace Processors

open Machine
open Runs

/-- An interrupt as it is written to the command registers, 0x310 and 0x300. -/
structure Ipi where
  high : Half
  low : Half

def getTargetipiMask : Half := 1 <<< 14 ||| 1 <<< 15 ||| 0 <<< 18

def getExselfipiMask : Half := 1 <<< 14 ||| 1 <<< 15 ||| 3 <<< 18

def getStartupmodeMask : Half := 6 <<< 8

/-- `OS_INTERRUPTS::FIRST_SIPI` -/
def firstSipi : Half := 48

/-- `OS_INTERRUPTS::REQUEST_DATA_POINTER` -/
def requestDataPointer : Half := 49

/-- `OS_INTERRUPTS::NOTIFY_DATA` -/
def notifyData : Half := 50

/-- `OS_INTERRUPTS::ENDOF_TRANSACTION` -/
def endofTransaction : Half := 51

/-- `OS_INTERRUPTS::SLEEP` -/
def sleep : Half := 52

def pokeBrother (brother_id action : Half) : Ipi where
  high := shl brother_id 56
  low := getTargetipiMask ||| action

/-- `brothers_poke`: the high register is not looked at. -/
def brothersPoke (action : Half) : Ipi where
  high := 0
  low := getExselfipiMask ||| action

/-- The message of processor `self` gets to processor `p`. -/
def Ipi.reaches (m : Ipi) (self p : Byte) : Bool :=
  match ((m.low >>> 18) &&& 3).toNat with
  | 0 => (m.high >>> 24).setWidth 8 = p
  | 1 => p = self
  | 2 => true
  | _ => p ≠ self

/-- The message is in startup mode. -/
def Ipi.startup (m : Ipi) : Bool := (m.low >>> 8) &&& 7 = 6

def Ipi.vector (m : Ipi) : Half := (m.low.setWidth 8).setWidth 32

/-- The message is one of the boot interrupts, a digit. -/
def Ipi.isDigit (m : Ipi) : Bool :=
  !m.startup && decide (32 ≤ m.vector.toNat ∧ m.vector.toNat < 48)

/-- The registers of a processor.  `digits` counts the digits that it has handled, and
`requests` are the values of `cr5` with which it has asked for its data. -/
structure Brother where
  cr5 : Word
  cr9 : Word
  digits : Nat
  requests : List Word

/-- `prepare_controls` -/
def Brother.prepareControls (b : Brother) : Brother := { b with cr9 := 0 }

/-- `request_data` -/
def Brother.requestData (b : Brother) : Brother × List Ipi :=
  ({ b with requests := b.cr5 :: b.requests },
    [pokeBrother (b.cr5.setWidth 32) requestDataPointer])

/-- `templ_receive_info` -/
def Brother.templReceiveInfo (num : Half) (b : Brother) : Brother × List Ipi :=
  let cr5 := b.cr5 ||| shl (num.setWidth 64) b.cr9.toNat
  let b := { b with cr5 := cr5, cr9 := b.cr9 + 4, digits := b.digits + 1 }
  if b.cr9.setWidth 32 = (64 : Half) then b.requestData else (b, [])

/-- `receive_data` -/
def Brother.receiveData (b : Brother) : Brother × List Ipi :=
  (b, [pokeBrother (b.cr5.setWidth 32) endofTransaction])

/-- `serve_data` -/
def Brother.serveData (b : Brother) : Brother × List Ipi :=
  (b, [brothersPoke notifyData])

/-- `interrupt_routines`: what a processor does with a message, and what it sends. -/
def Brother.handles (b : Brother) (m : Ipi) : Brother × List Ipi :=
  if m.startup then (b, [])
  else if m.isDigit then b.templReceiveInfo (m.vector - 32)
  else if m.vector = firstSipi then (b.prepareControls, [])
  else if m.vector = requestDataPointer then b.serveData
  else if m.vector = notifyData then b.receiveData
  else (b, [])

/-- What `initialize_brothers` sends: to all, or to the one that its loop names. -/
inductive BootAction where
  | brothers (mask : Half)
  | brother (i action : Half)

def BootAction.ipi : BootAction → Ipi
  | .brothers mask => brothersPoke mask
  | .brother i action => pokeBrother i action

/-- `rotateRight((char)(bsp_id<<4),4)` -/
def bootDigit (bsp_id : Byte) : Byte :=
  ((bsp_id.setWidth 32 <<< 4).setWidth 8).rotateRight 4

/-- `32+((char)bsp_id)` -/
def digitVector (bsp_id : Byte) : Half := 32 + (bootDigit bsp_id).setWidth 32

/-- One round of the loop. -/
def bootRound (bsp_id : Byte) (i : Nat) : List BootAction :=
  let i := BitVec.ofNat 32 i
  [.brother i firstSipi, .brother i (digitVector bsp_id), .brother i (digitVector bsp_id)]

def initializeBrothers (bsp_id : Byte) : List BootAction :=
  .brothers (getStartupmodeMask ||| sleep) ::
    (List.range (bootDigit bsp_id).toNat).flatMap (bootRound bsp_id)

/-- What the boot processor has still to send and has sent, the registers, and the
messages on their way from one processor to another. -/
structure BringUp where
  todo : List BootAction
  sent : List BootAction
  brothers : Byte → Brother
  channel : Byte → Byte → List Ipi

/-- The processors as they are before `initialize_brothers`. -/
def BringUp.start (bsp_id : Byte) (cr5 cr9 : Byte → Word) : BringUp where
  todo := initializeBrothers bsp_id
  sent := []
  brothers := fun p => ⟨cr5 p, cr9 p, 0, []⟩
  channel := fun _ _ => []

/-- Processor `self` sends a message. -/
def BringUp.send (s : BringUp) (self : Byte) (m : Ipi) : BringUp :=
  { s with
    channel := fun a p =>
      if a = self then s.channel a p ++ [m].filter (Ipi.reaches · self p) else s.channel a p }

/-- Processor `p` takes message `m` from `a`, which leaves `rest` on the way. -/
def BringUp.taken (s : BringUp) (a p : Byte) (m : Ipi) (rest : List Ipi) : BringUp :=
  { s with
    brothers := Function.update s.brothers p ((s.brothers p).handles m).1
    channel := Function.update s.channel a (Function.update (s.channel a) p rest) }

/-- It takes the message and sends what it has to send for it. -/
def BringUp.delivered (s : BringUp) (a p : Byte) (m : Ipi) (rest : List Ipi) : BringUp :=
  ((s.brothers p).handles m).2.foldl (BringUp.send · p) (s.taken a p m rest)

/-- The boot processor sends its next message, or a processor takes the next one of `a`. -/
inductive BringUpOp where
  | boot
  | deliver (a p : Byte)

def BringUpStep (bsp_id : Byte) (aps : Finset Byte) (s : BringUp) (op : BringUpOp)
    (s' : BringUp) : Prop :=
  match op with
  | .boot => ∃ action rest, s.todo = action :: rest ∧
      s' = { s with todo := rest, sent := s.sent ++ [action] }.send bsp_id action.ipi
  | .deliver a p => p ∈ insert bsp_id aps ∧ ∃ m rest, s.channel a p = m :: rest ∧
      s' = s.delivered a p m rest

/-- The messages that the boot processor ever sends to `p`. -/
def script (bsp_id p : Byte) : List Ipi :=
  ((initializeBrothers bsp_id).map BootAction.ipi).filter (Ipi.reaches · bsp_id p)

/-- The digits that the boot processor ever sends to `p`. -/
def digitsEver (bsp_id p : Byte) : Nat := (script bsp_id p).countP Ipi.isDigit

/-- What the handshake should keep to. -/
structure HandshakeHolds (bsp_id : Byte) (aps : Finset Byte) (s : BringUp) : Prop where
  addressed : ∀ i action, .brother i action ∈ s.sent →
    ∀ p, (pokeBrother i action).reaches bsp_id p ↔ p.setWidth 32 = i
  requested : ∀ p, p ∈ aps → ∀ v, v ∈ (s.brothers p).requests → v = bsp_id.setWidth 64
  complete : ∀ p, p ∈ aps → (s.brothers p).digits = digitsEver bsp_id p →
    (s.brothers p).requests ≠ []

/-- The handshake is right from all registers and in all orders. -/
def HandshakeDelivers (bsp_id : Byte) (aps : Finset Byte) : Prop :=
  ∀ cr5 cr9, AlwaysFrom (BringUpStep bsp_id aps) (HandshakeHolds bsp_id aps)
    (BringUp.start bsp_id cr5 cr9)

theorem bootDigit_toNat (bsp_id : Byte) : (bootDigit bsp_id).toNat = bsp_id.toNat % 16 := by
  revert bsp_id
  decide +kernel

/-- The shift by 56 places an id of eight bits. -/
theorem pokeBrother_high
    {i : Half}
    (hi : i.toNat < 256)
    (action : Half) :
    ((pokeBrother i action).high >>> 24).toNat = i.toNat := by
  have hshift : (pokeBrother i action).high = i <<< 24 := rfl
  rw [hshift, BitVec.toNat_ushiftRight, BitVec.toNat_shiftLeft, Nat.shiftLeft_eq,
    Nat.shiftRight_eq_div_pow, Nat.mod_eq_of_lt (by omega)]
  omega

/-- An action of eight bits leaves the mask alone. -/
theorem pokeBrother_low
    {action : Half}
    (haction : action.toNat < 256)
    (i : Half) :
    (pokeBrother i action).low >>> 8 = getTargetipiMask >>> 8 := by
  have hzero : action >>> 8 = 0#32 := by
    apply BitVec.eq_of_toNat_eq
    rw [BitVec.toNat_ushiftRight, Nat.shiftRight_eq_div_pow]
    simp; omega
  have hlow : (pokeBrother i action).low = getTargetipiMask ||| action := rfl
  rw [hlow, BitVec.ushiftRight_or_distrib, hzero, BitVec.or_zero]

theorem pokeBrother_reaches
    {i action : Half}
    (hi : i.toNat < 256)
    (haction : action.toNat < 256)
    (self p : Byte) :
    (pokeBrother i action).reaches self p = true ↔ p.setWidth 32 = i := by
  have hmode : (pokeBrother i action).low >>> 18 = 0 := by
    have h18 : (pokeBrother i action).low >>> 18 = ((pokeBrother i action).low >>> 8) >>> 10 :=
      (BitVec.shiftRight_add _ 8 10)
    rw [h18, pokeBrother_low haction]
    rfl
  have hself : (pokeBrother i action).reaches self p =
      decide (((pokeBrother i action).high >>> 24).setWidth 8 = p) := by
    rw [Ipi.reaches, hmode]
    rfl
  rw [hself, decide_eq_true_iff, ← BitVec.toNat_inj, ← BitVec.toNat_inj, BitVec.toNat_setWidth,
    BitVec.toNat_setWidth, pokeBrother_high hi]
  omega

theorem pokeBrother_startup
    {action : Half}
    (haction : action.toNat < 256)
    (i : Half) :
    (pokeBrother i action).startup = false := by
  rw [Ipi.startup, pokeBrother_low haction]
  rfl

theorem pokeBrother_vector
    {action : Half}
    (haction : action.toNat < 256)
    (i : Half) :
    (pokeBrother i action).vector = action := by
  have hlow : (pokeBrother i action).low.setWidth 8 = action.setWidth 8 := by
    have h : (pokeBrother i action).low = getTargetipiMask ||| action := rfl
    have hmask : getTargetipiMask.setWidth 8 = 0#8 := rfl
    rw [h, BitVec.setWidth_or, hmask, BitVec.zero_or]
  rw [Ipi.vector, hlow]
  apply BitVec.eq_of_toNat_eq
  simp only [BitVec.toNat_setWidth]
  omega

theorem digitVector_toNat (bsp_id : Byte) :
    (digitVector bsp_id).toNat = 32 + bsp_id.toNat % 16 := by
  rw [digitVector, BitVec.toNat_add, BitVec.toNat_setWidth, bootDigit_toNat]
  have hthirtytwo : (32 : Half).toNat = 32 := rfl
  omega

/-- The messages of the round of `p`. -/
def roundOf (bsp_id p : Byte) : List Ipi := (bootRound bsp_id p.toNat).map BootAction.ipi

theorem mem_bootRound
    {bsp_id : Byte} {i : Nat} {action : BootAction}
    (h : action ∈ bootRound bsp_id i) :
    ∃ vector : Half, vector.toNat < 256 ∧ action = .brother (BitVec.ofNat 32 i) vector := by
  have hdigit := digitVector_toNat bsp_id
  simp only [bootRound, List.mem_cons, List.not_mem_nil, or_false] at h
  rcases h with rfl | rfl | rfl
  · exact ⟨firstSipi, by decide, rfl⟩
  · exact ⟨_, by omega, rfl⟩
  · exact ⟨_, by omega, rfl⟩

/-- A round reaches the processor that it names. -/
theorem bootRound_filter
    (bsp_id self p : Byte) {i : Nat}
    (hi : i < 256) :
    ((bootRound bsp_id i).map BootAction.ipi).filter (Ipi.reaches · self p) =
      if p.toNat = i then roundOf bsp_id p else [] := by
  have hreaches : ∀ m, m ∈ (bootRound bsp_id i).map BootAction.ipi →
      (m.reaches self p = true ↔ p.toNat = i) := by
    intro m hm
    obtain ⟨action, haction, rfl⟩ := List.mem_map.mp hm
    obtain ⟨vector, hvector, rfl⟩ := mem_bootRound haction
    have hsmall : (BitVec.ofNat 32 i).toNat < 256 := by
      rw [BitVec.toNat_ofNat]
      omega
    rw [BootAction.ipi, pokeBrother_reaches hsmall hvector, ← BitVec.toNat_inj,
      BitVec.toNat_setWidth, BitVec.toNat_ofNat]
    omega
  split_ifs with h
  · rw [roundOf, h]
    exact List.filter_eq_self.mpr fun m hm => (hreaches m hm).mpr h
  · exact List.filter_eq_nil_iff.mpr fun m hm => fun hm' => h ((hreaches m hm).mp hm')

/-- So the loop reaches those below its bound, with one round each. -/
theorem loop_filter
    (bsp_id self p : Byte) {n : Nat}
    (hn : n ≤ 256) :
    (((List.range n).flatMap (bootRound bsp_id)).map BootAction.ipi).filter
        (Ipi.reaches · self p) =
      if p.toNat < n then roundOf bsp_id p else [] := by
  induction n with
  | zero => simp
  | succ n ih =>
      rw [List.range_succ, List.flatMap_append, List.map_append, List.filter_append,
        ih (by omega), List.flatMap_singleton, bootRound_filter bsp_id self p (by omega)]
      rcases Nat.lt_trichotomy p.toNat n with h | h | h
      · simp [h, Nat.ne_of_lt h, Nat.lt_succ_of_lt h]
      · simp [h]
      · have hlt : ¬ p.toNat < n := by omega
        have hsucc : ¬ p.toNat < n + 1 := by omega
        simp [hlt, hsucc, Nat.ne_of_gt h]

/-- The boot processor sends nothing to itself. -/
theorem script_self (bsp_id : Byte) : script bsp_id bsp_id = [] := by
  have hn := bootDigit_toNat bsp_id
  have hloop := loop_filter bsp_id bsp_id bsp_id (n := (bootDigit bsp_id).toNat) (by omega)
  rw [if_neg (by omega)] at hloop
  rw [script, initializeBrothers, List.map_cons, List.filter_cons, hloop]
  have hall : (BootAction.brothers (getStartupmodeMask ||| sleep)).ipi.reaches bsp_id bsp_id
      = decide (bsp_id ≠ bsp_id) := rfl
  simp [hall]

/-- To another one it sends a message in startup mode, and the round if it is named. -/
theorem script_of_ne
    {bsp_id p : Byte}
    (hp : p ≠ bsp_id) :
    script bsp_id p = brothersPoke (getStartupmodeMask ||| sleep) ::
      if p.toNat < bsp_id.toNat % 16 then roundOf bsp_id p else [] := by
  have hn := bootDigit_toNat bsp_id
  have hloop := loop_filter bsp_id bsp_id p (n := (bootDigit bsp_id).toNat) (by omega)
  have hall : (BootAction.brothers (getStartupmodeMask ||| sleep)).ipi.reaches bsp_id p
      = decide (p ≠ bsp_id) := rfl
  rw [script, initializeBrothers, List.map_cons, List.filter_cons, hloop, hn, hall]
  simp [hp, BootAction.ipi]

section Handling

variable (b : Brother)

theorem handles_startup : b.handles (brothersPoke (getStartupmodeMask ||| sleep)) = (b, []) := by
  have h : (brothersPoke (getStartupmodeMask ||| sleep)).startup = true := rfl
  rw [Brother.handles, if_pos h]

theorem isDigit_startup : (brothersPoke (getStartupmodeMask ||| sleep)).isDigit = false := rfl

theorem handles_firstSipi (i : Half) :
    b.handles (pokeBrother i firstSipi) = (b.prepareControls, []) := by
  have hstartup := pokeBrother_startup (by decide : firstSipi.toNat < 256) i
  have hvector := pokeBrother_vector (by decide : firstSipi.toNat < 256) i
  have hdigit : (pokeBrother i firstSipi).isDigit = false := by
    rw [Ipi.isDigit, hstartup, hvector]
    rfl
  simp [Brother.handles, hstartup, hvector, hdigit]

theorem isDigit_firstSipi (i : Half) : (pokeBrother i firstSipi).isDigit = false := by
  rw [Ipi.isDigit, pokeBrother_startup (by decide : firstSipi.toNat < 256) i,
    pokeBrother_vector (by decide : firstSipi.toNat < 256) i]
  rfl

theorem isDigit_digit (bsp_id : Byte) (i : Half) :
    (pokeBrother i (digitVector bsp_id)).isDigit = true := by
  have hdigit := digitVector_toNat bsp_id
  rw [Ipi.isDigit, pokeBrother_startup (by omega) i, pokeBrother_vector (by omega) i, hdigit,
    decide_eq_true (by omega)]
  rfl

/-- A digit that does not bring the offset to 64. -/
theorem handles_digit
    {b : Brother}
    (hcr9 : (b.cr9 + 4).setWidth 32 ≠ (64 : Half))
    (bsp_id : Byte) (i : Half) :
    ∃ cr5, b.handles (pokeBrother i (digitVector bsp_id)) =
      (⟨cr5, b.cr9 + 4, b.digits + 1, b.requests⟩, []) := by
  have hdigit := digitVector_toNat bsp_id
  have hstartup := pokeBrother_startup (by omega : (digitVector bsp_id).toNat < 256) i
  rw [Brother.handles, if_neg (by simp [hstartup]), if_pos (isDigit_digit bsp_id i),
    Brother.templReceiveInfo, if_neg hcr9]
  exact ⟨_, rfl⟩

end Handling

/-- What a processor is left with after messages that come to it one after the other. -/
def Brother.reads (b : Brother) (ms : List Ipi) : Brother :=
  ms.foldl (fun b m => (b.handles m).1) b

/-- A round is two digits, and they bring the offset to 8. -/
theorem reads_roundOf (b : Brother) (bsp_id p : Byte) :
    (b.reads (roundOf bsp_id p)).digits = b.digits + 2 ∧
      (b.reads (roundOf bsp_id p)).requests = b.requests := by
  have hfour : ((0 : Word) + 4).setWidth 32 ≠ (64 : Half) := by decide
  have height : ((0 : Word) + 4 + 4).setWidth 32 ≠ (64 : Half) := by decide
  obtain ⟨cr5, hfirst⟩ := handles_digit (b := b.prepareControls) hfour bsp_id
    (BitVec.ofNat 32 p.toNat)
  obtain ⟨cr5', hsecond⟩ := handles_digit (b := ⟨cr5, 0 + 4, b.digits + 1, b.requests⟩) height
    bsp_id (BitVec.ofNat 32 p.toNat)
  simp only [roundOf, bootRound, List.map_cons, List.map_nil, BootAction.ipi, Brother.reads,
    List.foldl_cons, List.foldl_nil, handles_firstSipi, hfirst]
  exact ⟨congrArg (·.1.digits) hsecond, congrArg (·.1.requests) hsecond⟩

theorem countP_roundOf (bsp_id p : Byte) : (roundOf bsp_id p).countP Ipi.isDigit = 2 := by
  simp [roundOf, bootRound, BootAction.ipi, isDigit_firstSipi, isDigit_digit]

/-- The messages of the boot processor are all its digits and lead to no request. -/
theorem reads_script
    {bsp_id p : Byte}
    (hp : p ≠ bsp_id)
    (b : Brother) :
    (b.reads (script bsp_id p)).digits = b.digits + digitsEver bsp_id p ∧
      (b.reads (script bsp_id p)).requests = b.requests := by
  have hround := reads_roundOf b bsp_id p
  have hcount := countP_roundOf bsp_id p
  rw [digitsEver, script_of_ne hp]
  split_ifs with h
  · simp only [Brother.reads, List.foldl_cons, handles_startup, List.countP_cons,
      isDigit_startup] at hround ⊢
    simpa [hcount] using hround
  · simp [Brother.reads, handles_startup, isDigit_startup]

section Runs

variable {bsp_id p : Byte} {aps : Finset Byte} {P : BringUp → Prop} {s : BringUp}

@[simp] theorem send_todo (s : BringUp) (self : Byte) (m : Ipi) :
    (s.send self m).todo = s.todo :=
  rfl

@[simp] theorem send_sent (s : BringUp) (self : Byte) (m : Ipi) :
    (s.send self m).sent = s.sent :=
  rfl

/-- What a processor sends is on its own channels. -/
theorem sends_frame (ms : List Ipi) (s : BringUp) (self : Byte) :
    (ms.foldl (BringUp.send · self) s).brothers = s.brothers ∧
      (ms.foldl (BringUp.send · self) s).todo = s.todo ∧
      (ms.foldl (BringUp.send · self) s).sent = s.sent ∧
      ∀ a, a ≠ self → (ms.foldl (BringUp.send · self) s).channel a = s.channel a := by
  induction ms generalizing s with
  | nil => exact ⟨rfl, rfl, rfl, fun a _ => rfl⟩
  | cons m ms ih =>
      obtain ⟨hbrothers, htodo, hsent, hchannel⟩ := ih (s.send self m)
      rw [List.foldl_cons]
      refine ⟨hbrothers, htodo, hsent, fun a ha => (hchannel a ha).trans ?_⟩
      simp [BringUp.send, ha]

/-- A delivery takes a message off its channel and is for one processor. -/
theorem delivered_frame (s : BringUp) (a p : Byte) (m : Ipi) (rest : List Ipi) :
    (s.delivered a p m rest).brothers =
        Function.update s.brothers p ((s.brothers p).handles m).1 ∧
      (s.delivered a p m rest).todo = s.todo ∧
      (s.delivered a p m rest).sent = s.sent ∧
      (a ≠ p → (s.delivered a p m rest).channel a p = rest) := by
  obtain ⟨hbrothers, htodo, hsent, hchannel⟩ :=
    sends_frame ((s.brothers p).handles m).2 (s.taken a p m rest) p
  refine ⟨hbrothers, htodo, hsent, fun ha => ?_⟩
  rw [BringUp.delivered, hchannel a ha]
  simp [BringUp.taken]

/-- The boot processor can send all that it has to send. -/
theorem boot_all
    (hsafe : AlwaysFrom (BringUpStep bsp_id aps) P s)
    (p : Byte) :
    ∃ t, AlwaysFrom (BringUpStep bsp_id aps) P t ∧ t.brothers = s.brothers ∧
      t.channel bsp_id p = s.channel bsp_id p ++
        (s.todo.map BootAction.ipi).filter (Ipi.reaches · bsp_id p) := by
  obtain ⟨todo, htodo⟩ : ∃ todo, s.todo = todo := ⟨_, rfl⟩
  induction todo generalizing s with
  | nil => exact ⟨s, hsafe, rfl, by simp [htodo]⟩
  | cons action rest ih =>
      have hstep : BringUpStep bsp_id aps s .boot
          ({ s with todo := rest, sent := s.sent ++ [action] }.send bsp_id action.ipi) :=
        ⟨action, rest, htodo, rfl⟩
      obtain ⟨t, ht, hbrothers, hchannel⟩ := ih (hsafe.next hstep) rfl
      refine ⟨t, ht, hbrothers, ?_⟩
      rw [hchannel, htodo]
      simp [BringUp.send, ← List.filter_append]

/-- And a processor can take all that is on its way from there. -/
theorem deliver_all
    (hsafe : AlwaysFrom (BringUpStep bsp_id aps) P s)
    (hmem : p ∈ aps)
    (hp : p ≠ bsp_id) :
    ∃ t, AlwaysFrom (BringUpStep bsp_id aps) P t ∧
      t.brothers p = (s.brothers p).reads (s.channel bsp_id p) := by
  obtain ⟨ms, hms⟩ : ∃ ms, s.channel bsp_id p = ms := ⟨_, rfl⟩
  induction ms generalizing s with
  | nil => exact ⟨s, hsafe, by rw [hms]; rfl⟩
  | cons m rest ih =>
      have hstep : BringUpStep bsp_id aps s (.deliver bsp_id p)
          (s.delivered bsp_id p m rest) :=
        ⟨Finset.mem_insert_of_mem hmem, m, rest, hms, rfl⟩
      obtain ⟨hbrothers, -, -, hchannel⟩ := delivered_frame s bsp_id p m rest
      have hrest := hchannel (Ne.symm hp)
      obtain ⟨t, ht, hread⟩ := ih (hsafe.next hstep) hrest
      refine ⟨t, ht, ?_⟩
      rw [hread, hbrothers, hrest, hms, Function.update_self]
      rfl

end Runs

/-- A processor that takes all that is sent to it is left waiting. -/
theorem not_handshakeDelivers_of_mem
    {bsp_id p : Byte} {aps : Finset Byte}
    (hmem : p ∈ aps) :
    ¬ HandshakeDelivers bsp_id aps := by
  intro h
  have hstart := h (fun _ => 0) (fun _ => 0)
  by_cases hp : p = bsp_id
  · subst hp
    have hcount : digitsEver p p = 0 := by rw [digitsEver, script_self]; rfl
    exact hstart.here.complete p hmem hcount.symm rfl
  · obtain ⟨s, hs, hbrothers, hchannel⟩ := boot_all hstart p
    obtain ⟨t, ht, hread⟩ := deliver_all hs hmem hp
    have hscript : s.channel bsp_id p = script bsp_id p := hchannel
    obtain ⟨hdigits, hrequests⟩ := reads_script hp (s.brothers p)
    rw [← hscript, ← hread, hbrothers] at hdigits hrequests
    have hcount : (t.brothers p).digits = digitsEver bsp_id p :=
      hdigits.trans (Nat.zero_add _)
    exact ht.here.complete p hmem hcount hrequests

/-- What the loop sends has a number of four bits. -/
def LoopNamed (s : BringUp) : Prop :=
  ∀ i action, .brother i action ∈ s.todo ++ s.sent →
    i.toNat < 256 ∧ action.toNat < 256

theorem loopNamed_start (bsp_id : Byte) (cr5 cr9 : Byte → Word) :
    LoopNamed (BringUp.start bsp_id cr5 cr9) := by
  intro i action h
  have hn := bootDigit_toNat bsp_id
  simp only [BringUp.start, List.append_nil, initializeBrothers, List.mem_cons,
    List.mem_flatMap, List.mem_range] at h
  rcases h with h | ⟨j, hj, h⟩
  · cases h
  · obtain ⟨vector, hvector, heq⟩ := mem_bootRound h
    cases heq
    exact ⟨by rw [BitVec.toNat_ofNat]; omega, hvector⟩

theorem loopNamed_step
    {bsp_id : Byte} {aps : Finset Byte} {s s' : BringUp} {op : BringUpOp}
    (hs : LoopNamed s)
    (hstep : BringUpStep bsp_id aps s op s') :
    LoopNamed s' := by
  cases op with
  | boot =>
      obtain ⟨action, rest, htodo, rfl⟩ := hstep
      intro i vector h
      apply hs i vector
      simp only [send_todo, send_sent, List.mem_append, List.mem_singleton] at h
      rw [htodo]
      simp only [List.mem_append, List.mem_cons]
      tauto
  | deliver a p =>
      obtain ⟨-, m, rest, -, rfl⟩ := hstep
      obtain ⟨-, htodo, hsent, -⟩ := delivered_frame s a p m rest
      intro i vector h
      apply hs i vector
      rwa [htodo, hsent] at h

/-- **The handshake delivers the id of the boot processor when there is no other
processor, and only then.** -/
theorem handshake_delivers_iff (bsp_id : Byte) (aps : Finset Byte) :
    HandshakeDelivers bsp_id aps ↔ aps = ∅ := by
  constructor
  · intro h
    by_contra hne
    obtain ⟨p, hp⟩ := Finset.nonempty_of_ne_empty hne
    exact not_handshakeDelivers_of_mem hp h
  · rintro rfl cr5 cr9 run hrun
    have hkeep : ∀ s op s', LoopNamed s → BringUpStep bsp_id ∅ s op s' → LoopNamed s' :=
      fun _ _ _ => loopNamed_step
    have hnamed := always_of_preserved hkeep hrun (loopNamed_start bsp_id cr5 cr9)
    refine hnamed.mono fun t ht => ⟨fun i action h => ?_, by simp, by simp⟩
    obtain ⟨hi, haction⟩ := ht i action (List.mem_append_right _ h)
    exact pokeBrother_reaches hi haction bsp_id

/-- Processor 1 brings up processor 0: it sends two digits and is not asked for its data. -/
theorem one_brother_left_waiting : ¬ HandshakeDelivers 1 {0} :=
  not_handshakeDelivers_of_mem (Finset.mem_singleton_self 0)

end Processors
end BestKernel
