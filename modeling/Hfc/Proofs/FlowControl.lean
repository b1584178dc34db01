/-
Module: Hfc.Proofs.FlowControl
Layer: Proofs
Purpose: The flow control of a connection over any interleaving of its two ends. The credit that the
  receiver counts is always the window of the sender with what is under way, so no data and no
  update is ever refused; and with automatic updates a connection at rest can always be written to.
Imports: Hfc.Core.FlowControl, Mathlib.Algebra.Order.BigOperators.Group.List,
  Mathlib.Algebra.Order.Ring.Int
Main exports: WindowOk, WindowReceiver.credit, Keeps, Balanced, Balanced.step,
  flow_control_in_balance, Prompt, Prompt.step, connection_never_stalls
-/
import Hfc.Core.FlowControl
import Mathlib.Algebra.Order.BigOperators.Group.List
import Mathlib.Algebra.Order.Ring.Int

namespace Hfc

open EventRun Numeral

/-! ### The window

A window between zero and the largest, and what the two functions that change it keep of that. -/

/-- The numbers of a window are in range: a reduction is undone before the window grows beyond what
it was, and a receive window below zero comes from a reduction. -/
structure WindowOk (w : LocalWindow) : Prop where
  size : 0 ≤ w.localWindowSize
  reduction : 0 ≤ w.recvReduction
  most : w.localWindowSize + w.recvReduction ≤ maxWindowSize
  back : 0 ≤ w.recvWindowSize + w.recvReduction

/-- What may still come. -/
def LocalWindow.left (w : LocalWindow) : Int :=
  w.localWindowSize - w.recvWindowSize

theorem WindowOk.left_le {w : LocalWindow} (ok : WindowOk w) : w.left ≤ maxWindowSize := by
  have most := ok.most
  have back := ok.back
  rw [LocalWindow.left]
  omega

/-- The peer is told exactly what more may come. -/
theorem adjustLocalWindowSize_spec {w w' : LocalWindow} {delta rest : Int} (ok : WindowOk w)
    (adjusted : adjustLocalWindowSize w delta = some (w', rest)) :
    WindowOk w' ∧ w'.left = w.left + rest ∧ 0 ≤ rest := by
  obtain ⟨size, reduction, most, back⟩ := ok
  unfold LocalWindow.left
  unfold adjustLocalWindowSize at adjusted
  dsimp only at adjusted
  split at adjusted
  · split at adjusted
    · cases adjusted
      refine ⟨⟨size, reduction, most, ?_⟩, ?_, ?_⟩ <;> (try dsimp only) <;> omega
    · split at adjusted
      · cases adjusted
      · cases adjusted
        refine ⟨⟨?_, ?_, ?_, ?_⟩, ?_, ?_⟩ <;> (try dsimp only) <;> (try split) <;> omega
  · split at adjusted
    · cases adjusted
    · cases adjusted
      refine ⟨⟨?_, ?_, ?_, ?_⟩, ?_, ?_⟩ <;> (try dsimp only) <;> omega

/-- A reduction changes the size and the bytes that have come by the same amount, and the peer is told
nothing. -/
theorem adjustLocalWindowSize_reduced {w w' : LocalWindow} {delta rest : Int} (less : delta ≤ 0)
    (adjusted : adjustLocalWindowSize w delta = some (w', rest)) :
    rest = 0 ∧ 0 ≤ w.localWindowSize + delta ∧
      w'.localWindowSize = w.localWindowSize + delta ∧
      w'.recvWindowSize = w.recvWindowSize + delta := by
  unfold adjustLocalWindowSize at adjusted
  rw [if_neg (not_lt.mpr less)] at adjusted
  split at adjusted
  · cases adjusted
  · rename_i inside
    cases adjusted
    exact ⟨rfl, by omega, rfl, rfl⟩

theorem increaseLocalWindowSize_spec {w w' : LocalWindow} {delta rest : Int} (ok : WindowOk w)
    (more : 0 ≤ delta) (increased : increaseLocalWindowSize w delta = some (w', rest)) :
    WindowOk w' ∧ w'.left = w.left + rest ∧ 0 ≤ rest := by
  obtain ⟨size, reduction, most, back⟩ := ok
  unfold LocalWindow.left
  unfold increaseLocalWindowSize at increased
  split at increased
  · cases increased
  · cases increased
    refine ⟨⟨?_, ?_, ?_, ?_⟩, ?_, ?_⟩ <;> (try dsimp only) <;> omega

/-! ### The receiver

The credit of the receiver is what it has promised to the other end: its window less what has
arrived. Each call keeps it, but for the updates it queues. -/

/-- The credit of the peer: what may still come, without what it has not been told yet. -/
def WindowReceiver.credit (r : WindowReceiver) : Int :=
  r.window.left - r.obReg.sum

/-- A session that has refused no data, in range and with updates that are some. -/
structure ReceiverOk (r : WindowReceiver) : Prop where
  window : WindowOk r.window
  queued : ∀ increment ∈ r.obReg, 0 < increment
  accepted : r.terminated ≠ some .data

/-- A call keeps the session as it should be and takes so much of the credit of the peer. -/
structure Keeps (taken : Int) (r r' : WindowReceiver) : Prop where
  ok : ReceiverOk r'
  credit : r'.credit + taken = r.credit

theorem Keeps.unchanged {r r' : WindowReceiver} (keeps : Keeps 0 r r') : r'.credit = r.credit := by
  have credit := keeps.credit
  rwa [add_zero] at credit

theorem sum_nonneg_of_pos {increments : List Int}
    (positive : ∀ increment ∈ increments, 0 < increment) :
    0 ≤ increments.sum :=
  List.sum_nonneg fun increment member => (positive increment member).le

theorem shouldSendWindowUpdate_iff {size recv : Int} :
    shouldSendWindowUpdate size recv = true ↔ 0 < recv ∧ size.tdiv 2 ≤ recv := by
  rw [shouldSendWindowUpdate, decide_eq_true_eq]

/-- A frame in the queue is credit that the peer has not been told of. -/
theorem ReceiverOk.addWindowUpdate {r : WindowReceiver} (ok : ReceiverOk r) {increment : Int}
    (positive : 0 < increment) :
    ReceiverOk (r.addWindowUpdate increment) ∧
      (r.addWindowUpdate increment).credit = r.credit - increment := by
  refine ⟨⟨ok.window, ?_, ok.accepted⟩, ?_⟩
  · intro other member
    rcases List.mem_append.mp member with before | last
    · exact ok.queued other before
    · rw [List.mem_singleton.mp last]
      exact positive
  · show r.window.left - (r.obReg ++ [increment]).sum = _
    rw [List.sum_append, List.sum_singleton, WindowReceiver.credit]
    omega

theorem ReceiverOk.withRecv {r : WindowReceiver} (ok : ReceiverOk r) (recv : Int)
    (back : 0 ≤ recv + r.window.recvReduction) :
    ReceiverOk (r.withRecv recv) ∧
      (r.withRecv recv).credit = r.credit + r.window.recvWindowSize - recv := by
  refine ⟨⟨⟨ok.window.size, ok.window.reduction, ok.window.most, back⟩, ok.queued, ok.accepted⟩, ?_⟩
  show r.window.localWindowSize - recv - r.obReg.sum = _
  rw [WindowReceiver.credit, LocalWindow.left]
  omega

/-- Data within the credit of the peer is never refused. -/
theorem ReceiverOk.adjustRecv {r : WindowReceiver} (ok : ReceiverOk r) {delta : Nat}
    (room : (delta : Int) ≤ r.credit) :
    adjustRecvWindowSize r.window.recvWindowSize delta r.window.localWindowSize =
      some (r.window.recvWindowSize + delta) := by
  have told := sum_nonneg_of_pos ok.queued
  have most := ok.window.most
  have reduction := ok.window.reduction
  rw [WindowReceiver.credit, LocalWindow.left] at room
  rw [adjustRecvWindowSize, if_neg (by omega)]

theorem updateRecvConnectionWindowSize_spec {r : WindowReceiver} (ok : ReceiverOk r) (delta : Nat)
    (room : (delta : Int) ≤ r.credit) :
    Keeps delta r (updateRecvConnectionWindowSize r delta) := by
  have reduction := ok.window.reduction
  have back := ok.window.back
  rw [updateRecvConnectionWindowSize, ok.adjustRecv room]
  dsimp only
  split
  · rename_i due
    rw [Bool.and_eq_true, shouldSendWindowUpdate_iff] at due
    obtain ⟨added, credit⟩ := ok.addWindowUpdate due.2.1
    obtain ⟨emptied, credit'⟩ := added.withRecv 0 (by
      show 0 ≤ 0 + r.window.recvReduction
      omega)
    refine ⟨emptied, ?_⟩
    rw [credit', credit]
    show _ + r.window.recvWindowSize - 0 + (delta : Int) = _
    omega
  · obtain ⟨ok', credit'⟩ := ok.withRecv (r.window.recvWindowSize + delta) (by omega)
    refine ⟨ok', ?_⟩
    rw [credit']
    omega

theorem updateConnectionConsumedSize_spec {r : WindowReceiver} (ok : ReceiverOk r) (delta : Nat) :
    Keeps 0 r (updateConnectionConsumedSize r delta) := by
  have reduction := ok.window.reduction
  unfold updateConnectionConsumedSize
  dsimp only
  split
  · exact ⟨⟨ok.window, ok.queued, by simp⟩, add_zero _⟩
  · split
    · rename_i due
      rw [Bool.and_eq_true, shouldSendWindowUpdate_iff] at due
      generalize isSize : min _ r.window.recvWindowSize = recvSize at due
      have fits : recvSize ≤ r.window.recvWindowSize := isSize ▸ min_le_right _ _
      obtain ⟨added, credit⟩ := ok.addWindowUpdate due.2.1
      obtain ⟨ok', credit'⟩ := added.withRecv (r.window.recvWindowSize - recvSize) (by
        show 0 ≤ r.window.recvWindowSize - recvSize + r.window.recvReduction
        omega)
      refine ⟨⟨ok'.window, ok'.queued, ok'.accepted⟩, ?_⟩
      show ((r.addWindowUpdate recvSize).withRecv
        (r.window.recvWindowSize - recvSize)).credit + 0 = _
      rw [credit', credit]
      show _ + r.window.recvWindowSize - _ + 0 = _
      omega
    · exact ⟨⟨ok.window, ok.queued, ok.accepted⟩, add_zero _⟩

theorem consumeConnection_spec {r : WindowReceiver} (ok : ReceiverOk r) (size : Nat) :
    Keeps 0 r (consumeConnection r size) := by
  rw [consumeConnection]
  split
  · exact updateConnectionConsumedSize_spec ok size
  · exact ⟨ok, add_zero _⟩

/-- A new window, with the peer told of what more may come. -/
theorem ReceiverOk.told {r : WindowReceiver} (ok : ReceiverOk r) {window : LocalWindow} {rest : Int}
    (ok' : WindowOk window) (left : window.left = r.window.left + rest) (positive : 0 < rest)
    (consumed : Int) :
    Keeps 0 r ({ r with window := window, consumedSize := consumed }.addWindowUpdate rest) := by
  have changed : ReceiverOk { r with window := window, consumedSize := consumed } :=
    ⟨ok', ok.queued, ok.accepted⟩
  obtain ⟨added, credit⟩ := changed.addWindowUpdate positive
  refine ⟨added, ?_⟩
  rw [credit]
  show window.left - r.obReg.sum - rest + 0 = _
  rw [left, WindowReceiver.credit]
  omega

/-- A new window that leaves as much room as the one before. -/
theorem ReceiverOk.same {r : WindowReceiver} (ok : ReceiverOk r) {window : LocalWindow}
    (ok' : WindowOk window) (left : window.left = r.window.left) :
    Keeps 0 r { r with window := window } := by
  refine ⟨⟨ok', ok.queued, ok.accepted⟩, ?_⟩
  show window.left - r.obReg.sum + 0 = _
  rw [left, WindowReceiver.credit, add_zero]

theorem submitWindowUpdate_spec {r : WindowReceiver} (ok : ReceiverOk r) (increment : Int) :
    Keeps 0 r (submitWindowUpdate r increment) := by
  rw [submitWindowUpdate]
  split
  · exact ⟨ok, add_zero _⟩
  · cases adjusted : adjustLocalWindowSize r.window increment with
    | none => exact ⟨ok, add_zero _⟩
    | some outcome =>
        obtain ⟨window, rest⟩ := outcome
        obtain ⟨ok', left, nonneg⟩ := adjustLocalWindowSize_spec ok.window adjusted
        dsimp only
        split
        · rename_i positive
          exact ok.told ok' left positive _
        · exact ok.same ok' (by omega)

theorem setLocalWindowSize_spec {r : WindowReceiver} (ok : ReceiverOk r) (credit : 0 ≤ r.credit)
    (windowSize : Int) : Keeps 0 r (setLocalWindowSize r windowSize) := by
  rw [setLocalWindowSize]
  split
  · exact ⟨ok, add_zero _⟩
  · dsimp only
    split
    · exact ⟨ok, add_zero _⟩
    · split
      · rename_i less
        cases adjusted : adjustLocalWindowSize r.window (windowSize - r.window.localWindowSize) with
        | none => exact ⟨ok, add_zero _⟩
        | some outcome =>
            obtain ⟨window, rest⟩ := outcome
            obtain ⟨ok', left, nonneg⟩ := adjustLocalWindowSize_spec ok.window adjusted
            have silent := (adjustLocalWindowSize_reduced less.le adjusted).1
            exact ok.same ok' (by omega)
      · cases increased : increaseLocalWindowSize r.window
          (windowSize - r.window.localWindowSize) with
        | none => exact ⟨ok, add_zero _⟩
        | some outcome =>
            obtain ⟨window, rest⟩ := outcome
            obtain ⟨ok', left, nonneg⟩ :=
              increaseLocalWindowSize_spec ok.window (by omega) increased
            dsimp only
            split
            · rename_i positive
              exact ok.told ok' left positive _
            · have same := ok.same ok' (show window.left = r.window.left by omega)
              have room : ((0 : Nat) : Int) ≤
                  ({ r with window := window } : WindowReceiver).credit := by
                rw [same.unchanged]
                exact credit
              have updated := updateRecvConnectionWindowSize_spec same.ok 0 room
              exact ⟨updated.ok, updated.credit.trans ((add_zero _).symm.trans same.credit)⟩

/-! ### Both ends

The credit of the receiver is what the sender has left, plus what is in flight: one number, kept by
every event of either end. -/

/-- The window of the sender with what is under way is the credit that the receiver counts, and
neither has refused anything. -/
structure Balanced (link : FlowLink) : Prop where
  receiver : ReceiverOk link.receiver
  credit : link.sender.remoteWindowSize + link.updates.sum + (link.data.sum : Int) =
    link.receiver.credit
  remote : 0 ≤ link.sender.remoteWindowSize
  active : ∀ length, link.sender.active = some length →
    (length : Int) ≤ link.sender.remoteWindowSize
  updates : ∀ increment ∈ link.updates, 0 < increment
  accepted : link.sender.terminated = false

theorem Balanced.credit_nonneg {link : FlowLink} (balanced : Balanced link) :
    0 ≤ link.receiver.credit := by
  have remote := balanced.remote
  have updates := sum_nonneg_of_pos balanced.updates
  have credit := balanced.credit
  omega

/-- What is under way is within the credit that the receiver counts. -/
theorem Balanced.room {link : FlowLink} (balanced : Balanced link) {left : Nat} {later : List Nat}
    (pieces : link.data = left :: later) : (left : Int) ≤ link.receiver.credit := by
  have credit := balanced.credit
  have remote := balanced.remote
  have updates := sum_nonneg_of_pos balanced.updates
  rw [pieces, List.sum_cons] at credit
  omega

theorem Balanced.init (noAutoWindowUpdate : Bool) : Balanced (.init noAutoWindowUpdate) where
  receiver :=
    { window :=
        { size := show 0 ≤ initialConnectionWindowSize by decide
          reduction := le_refl 0
          most := show initialConnectionWindowSize + 0 ≤ maxWindowSize by decide
          back := le_refl 0 }
      queued := fun increment member => by cases member
      accepted := by simp [FlowLink.init] }
  credit := rfl
  remote := show 0 ≤ initialConnectionWindowSize by decide
  active := fun length sending => by cases sending
  updates := fun increment member => by cases member
  accepted := rfl

/-- A call on the receiver that takes no credit. -/
theorem Balanced.call {link : FlowLink} (balanced : Balanced link)
    (call : WindowReceiver → WindowReceiver)
    (keeps : Keeps 0 link.receiver (call link.receiver)) : Balanced (link.receive call) := by
  rw [FlowLink.receive]
  split
  · exact ⟨keeps.ok, balanced.credit.trans keeps.unchanged.symm, balanced.remote, balanced.active,
      balanced.updates, balanced.accepted⟩
  · exact balanced

theorem Balanced.dataSent {link : FlowLink} (balanced : Balanced link) :
    Balanced (link.step .dataSent) := by
  rw [FlowLink.step]
  cases sending : link.sender.active with
  | none => exact balanced
  | some length =>
      have within := balanced.active length sending
      have credit := balanced.credit
      refine ⟨balanced.receiver, ?_, ?_, fun _ nothing => (by cases nothing), balanced.updates,
        balanced.accepted⟩
      · show link.sender.remoteWindowSize - length + link.updates.sum +
          ((link.data ++ [length]).sum : Int) = link.receiver.credit
        rw [List.sum_append, List.sum_singleton]
        omega
      · show 0 ≤ link.sender.remoteWindowSize - length
        omega

/-- The bytes that arrive are within the credit: the window of the sender is not below zero. -/
theorem Balanced.dataArrives {link : FlowLink} (balanced : Balanced link) (readlen : Nat) :
    Balanced (link.step (.dataArrives readlen)) := by
  rw [FlowLink.step]
  cases pieces : link.data with
  | nil => exact balanced
  | cons left later =>
      dsimp only
      split
      · rename_i fits
        have room := balanced.room pieces
        have credit := balanced.credit
        rw [pieces, List.sum_cons] at credit
        have keeps : Keeps readlen link.receiver
            (if readlen > 0 then updateRecvConnectionWindowSize link.receiver readlen
              else link.receiver) := by
          split
          · exact updateRecvConnectionWindowSize_spec balanced.receiver readlen (by omega)
          · rename_i nothing
            obtain rfl : readlen = 0 := by omega
            exact ⟨balanced.receiver, add_zero _⟩
        have rest : ((if left - readlen = 0 then later else (left - readlen) :: later).sum : Int) =
            left - readlen + later.sum := by
          split
          · omega
          · rw [List.sum_cons]
            omega
        generalize (if readlen > 0 then updateRecvConnectionWindowSize link.receiver readlen
          else link.receiver) = r at keeps ⊢
        generalize (if left - readlen = 0 then later
          else (left - readlen) :: later) = data at rest ⊢
        have taken := keeps.credit
        refine ⟨keeps.ok, ?_, balanced.remote, balanced.active, balanced.updates,
          balanced.accepted⟩
        show link.sender.remoteWindowSize + link.updates.sum + (data.sum : Int) = r.credit
        omega
      · exact balanced

theorem afterWindowUpdateSent_spec {r : WindowReceiver} (ok : ReceiverOk r)
    (credit : 0 ≤ r.credit) : Keeps 0 r (afterWindowUpdateSent r) := by
  have sent : ReceiverOk { r with windowUpdateQueued := false } :=
    ⟨ok.window, ok.queued, ok.accepted⟩
  rw [afterWindowUpdateSent]
  split
  · have keeps := updateConnectionConsumedSize_spec sent 0
    exact ⟨keeps.ok, keeps.credit⟩
  · have keeps := updateRecvConnectionWindowSize_spec sent 0 credit
    exact ⟨keeps.ok, keeps.credit⟩

/-- The first frame leaves the queue: the credit it has is under way. -/
theorem ReceiverOk.popped {r : WindowReceiver} (ok : ReceiverOk r) {increment : Int}
    {later : List Int} (frames : r.obReg = increment :: later) :
    0 < increment ∧ ReceiverOk { r with obReg := later } ∧
      WindowReceiver.credit { r with obReg := later } = r.credit + increment := by
  have positive := ok.queued
  rw [frames] at positive
  refine ⟨positive increment List.mem_cons_self,
    ⟨ok.window, fun other member => positive other (List.mem_cons_of_mem _ member),
      ok.accepted⟩, ?_⟩
  show r.window.left - later.sum = _
  rw [WindowReceiver.credit, frames, List.sum_cons]
  omega

theorem Balanced.windowUpdateSent {link : FlowLink} (balanced : Balanced link) :
    Balanced (link.step .windowUpdateSent) := by
  rw [FlowLink.step]
  cases frames : link.receiver.obReg with
  | nil => exact balanced
  | cons increment later =>
      dsimp only
      split
      · obtain ⟨first, popped, more⟩ := balanced.receiver.popped frames
        have nonneg := balanced.credit_nonneg
        have keeps := afterWindowUpdateSent_spec popped (by omega)
        generalize afterWindowUpdateSent { link.receiver with obReg := later } = r at keeps ⊢
        have credit := keeps.credit
        have before := balanced.credit
        refine ⟨keeps.ok, ?_, balanced.remote, balanced.active, ?_, balanced.accepted⟩
        · show link.sender.remoteWindowSize + (link.updates ++ [increment]).sum +
            (link.data.sum : Int) = r.credit
          rw [List.sum_append, List.sum_singleton]
          omega
        · intro other member
          rcases List.mem_append.mp member with earlier | last
          · exact balanced.updates other earlier
          · rw [List.mem_singleton.mp last]
            exact first
      · exact balanced

/-- An update is not refused: the window of the sender never grows beyond what the receiver may
take, which is at most `NGHTTP2_MAX_WINDOW_SIZE`. -/
theorem Balanced.windowUpdateArrives {link : FlowLink} (balanced : Balanced link) :
    Balanced (link.step .windowUpdateArrives) := by
  rw [FlowLink.step]
  cases frames : link.updates with
  | nil => exact balanced
  | cons increment later =>
      have positive := balanced.updates
      rw [frames] at positive
      have first := positive increment List.mem_cons_self
      have others := sum_nonneg_of_pos fun other member =>
        positive other (List.mem_cons_of_mem increment member)
      have told := sum_nonneg_of_pos balanced.receiver.queued
      have most := balanced.receiver.window.left_le
      have credit := balanced.credit
      have remote := balanced.remote
      rw [frames, List.sum_cons, WindowReceiver.credit] at credit
      have small : increment < 2 ^ 31 := by
        rw [maxWindowSize] at most
        omega
      have wire : increment % 2 ^ 31 = increment := Int.emod_eq_of_lt first.le small
      dsimp only
      rw [onConnectionWindowUpdateReceived, wire, if_neg first.ne', if_neg (by omega)]
      refine ⟨balanced.receiver, ?_, ?_, fun length sending => ?_,
        fun other member => positive other (List.mem_cons_of_mem _ member), balanced.accepted⟩
      · show link.sender.remoteWindowSize + increment + later.sum + (link.data.sum : Int) =
          link.receiver.credit
        rw [WindowReceiver.credit]
        omega
      · show 0 ≤ link.sender.remoteWindowSize + increment
        omega
      · have within := balanced.active length sending
        show (length : Int) ≤ link.sender.remoteWindowSize + increment
        omega

theorem Balanced.packData {link : FlowLink} (balanced : Balanced link)
    (streamWindowSize maxFrameSize : Int) (length : Nat) :
    Balanced (link.step (.packData streamWindowSize maxFrameSize length)) := by
  rw [FlowLink.step]
  split
  · rename_i packed
    obtain ⟨-, -, packs, fits⟩ := packed
    rw [nextDataRead] at packs fits
    refine ⟨balanced.receiver, balanced.credit, balanced.remote, fun length' sending => ?_,
      balanced.updates, balanced.accepted⟩
    cases sending
    show (length : Int) ≤ link.sender.remoteWindowSize
    omega
  · exact balanced

theorem Balanced.step {link : FlowLink} (balanced : Balanced link) (event : FlowEvent) :
    Balanced (link.step event) := by
  have ok := balanced.receiver
  cases event with
  | packData streamWindowSize maxFrameSize length => exact balanced.packData _ _ length
  | dataSent => exact balanced.dataSent
  | dataArrives readlen => exact balanced.dataArrives readlen
  | consume size => exact balanced.call (consumeConnection · size) (consumeConnection_spec ok size)
  | submitWindowUpdate increment =>
      exact balanced.call (submitWindowUpdate · increment) (submitWindowUpdate_spec ok increment)
  | setLocalWindowSize windowSize =>
      exact balanced.call (setLocalWindowSize · windowSize)
        (setLocalWindowSize_spec ok balanced.credit_nonneg windowSize)
  | windowUpdateSent => exact balanced.windowUpdateSent
  | windowUpdateArrives => exact balanced.windowUpdateArrives

/-- Over any interleaving of two ends, with automatic updates or without, and whatever windows the
application asks for: no byte of data and no update is refused, no credit is lost or counted twice,
and the windows of both ends, the bytes received and the reduction stay in the range of their types.
-/
theorem flow_control_in_balance (noAutoWindowUpdate : Bool) (events : List FlowEvent) :
    let link := exec FlowLink.step (.init noAutoWindowUpdate) events
    link.receiver.terminated ≠ some .data ∧ link.sender.terminated = false ∧
      link.sender.remoteWindowSize + link.updates.sum + link.receiver.obReg.sum +
          (link.data.sum : Int) =
        link.receiver.window.localWindowSize - link.receiver.window.recvWindowSize ∧
      0 ≤ link.sender.remoteWindowSize ∧ link.sender.remoteWindowSize ≤ maxWindowSize ∧
      0 ≤ link.receiver.window.localWindowSize ∧
      link.receiver.window.localWindowSize ≤ maxWindowSize ∧
      int32Min ≤ link.receiver.window.recvWindowSize ∧
      link.receiver.window.recvWindowSize ≤ link.receiver.window.localWindowSize ∧
      0 ≤ link.receiver.window.recvReduction ∧
      link.receiver.window.recvReduction ≤ maxWindowSize := by
  intro link
  have balanced : Balanced link :=
    invariant_exec Balanced (fun _ event balanced => balanced.step event)
      (.init noAutoWindowUpdate) events
  have credit := balanced.credit
  have remote := balanced.remote
  have updates := sum_nonneg_of_pos balanced.updates
  have told := sum_nonneg_of_pos balanced.receiver.queued
  have bound := balanced.receiver.window.left_le
  obtain ⟨size, reduction, most, back⟩ := balanced.receiver.window
  rw [WindowReceiver.credit] at credit
  rw [LocalWindow.left] at credit bound
  have low : int32Min ≤ -maxWindowSize := by decide
  refine ⟨balanced.receiver.accepted, balanced.accepted, ?_, remote, ?_, size, ?_, ?_, ?_,
    reduction, ?_⟩ <;> omega

/-! ### No stall

With automatic updates one is queued whenever it is due, so an idle connection leaves the sender at
least half of the window. -/

/-- The application does not ask for a larger window by `nghttp2_submit_window_update`, which may
pay back a reduction without an update. -/
def FlowEvent.steady : FlowEvent → Bool
  | .submitWindowUpdate increment => increment ≤ 0
  | _ => true

/-- With automatic updates, an update is queued whenever one should be sent. -/
structure Prompt (r : WindowReceiver) : Prop where
  auto : r.noAutoWindowUpdate = false
  queued : r.windowUpdateQueued = true → r.obReg ≠ []
  due : r.windowUpdateQueued = false →
    shouldSendWindowUpdate r.window.localWindowSize r.window.recvWindowSize = false

theorem Prompt.addWindowUpdate {r : WindowReceiver} (auto : r.noAutoWindowUpdate = false)
    (increment : Int) : Prompt (r.addWindowUpdate increment) where
  auto := auto
  queued _ := by simp [WindowReceiver.addWindowUpdate]
  due quiet := by cases quiet

/-- Behind a check for an update none is due. -/
theorem updateRecvConnectionWindowSize_prompt {r : WindowReceiver} (ok : ReceiverOk r) (delta : Nat)
    (room : (delta : Int) ≤ r.credit) (auto : r.noAutoWindowUpdate = false)
    (queued : r.windowUpdateQueued = true → r.obReg ≠ []) :
    Prompt (updateRecvConnectionWindowSize r delta) := by
  rw [updateRecvConnectionWindowSize, ok.adjustRecv room]
  dsimp only
  split
  · have added := Prompt.addWindowUpdate auto (r.window.recvWindowSize + delta)
    exact ⟨added.auto, added.queued, fun quiet => by cases quiet⟩
  · rename_i idle
    refine ⟨auto, queued, fun quiet => ?_⟩
    have quiet' : r.windowUpdateQueued = false := quiet
    rw [auto, quiet'] at idle
    show shouldSendWindowUpdate r.window.localWindowSize (r.window.recvWindowSize + delta) = false
    simpa using idle

/-- A smaller window makes no update due. -/
theorem shouldSendWindowUpdate_less {size recv delta : Int} (less : delta ≤ 0)
    (nonneg : 0 ≤ size + delta) (idle : shouldSendWindowUpdate size recv = false) :
    shouldSendWindowUpdate (size + delta) (recv + delta) = false := by
  rw [Bool.eq_false_iff, ne_eq, shouldSendWindowUpdate_iff] at idle ⊢
  rw [Int.tdiv_eq_ediv_of_nonneg nonneg]
  rw [Int.tdiv_eq_ediv_of_nonneg (by omega)] at idle
  omega

/-- The window after a reduction. -/
theorem Prompt.reduced {r : WindowReceiver} (prompt : Prompt r) {window : LocalWindow}
    {delta rest : Int} (less : delta ≤ 0)
    (adjusted : adjustLocalWindowSize r.window delta = some (window, rest)) :
    rest = 0 ∧ Prompt { r with window := window } := by
  obtain ⟨silent, nonneg, size, recv⟩ := adjustLocalWindowSize_reduced less adjusted
  refine ⟨silent, prompt.auto, prompt.queued, fun quiet => ?_⟩
  show shouldSendWindowUpdate window.localWindowSize window.recvWindowSize = false
  rw [size, recv]
  exact shouldSendWindowUpdate_less less nonneg (prompt.due quiet)

theorem Prompt.submitWindowUpdate {r : WindowReceiver} (prompt : Prompt r) {increment : Int}
    (less : increment ≤ 0) : Prompt (submitWindowUpdate r increment) := by
  rw [Hfc.submitWindowUpdate]
  split
  · exact prompt
  · cases adjusted : adjustLocalWindowSize r.window increment with
    | none => exact prompt
    | some outcome =>
        obtain ⟨window, rest⟩ := outcome
        obtain ⟨rfl, reduced⟩ := prompt.reduced less adjusted
        exact reduced

theorem Prompt.setLocalWindowSize {r : WindowReceiver} (prompt : Prompt r) (ok : ReceiverOk r)
    (credit : 0 ≤ r.credit) (windowSize : Int) : Prompt (setLocalWindowSize r windowSize) := by
  rw [Hfc.setLocalWindowSize]
  split
  · exact prompt
  · dsimp only
    split
    · exact prompt
    · split
      · rename_i less
        cases adjusted : adjustLocalWindowSize r.window (windowSize - r.window.localWindowSize) with
        | none => exact prompt
        | some outcome =>
            obtain ⟨window, rest⟩ := outcome
            exact (prompt.reduced less.le adjusted).2
      · cases increased : increaseLocalWindowSize r.window
          (windowSize - r.window.localWindowSize) with
        | none => exact prompt
        | some outcome =>
            obtain ⟨window, rest⟩ := outcome
            obtain ⟨ok', left, nonneg⟩ :=
              increaseLocalWindowSize_spec ok.window (by omega) increased
            dsimp only
            split
            · have auto : ({ r with window := window } : WindowReceiver).noAutoWindowUpdate = false :=
                prompt.auto
              exact .addWindowUpdate auto rest
            · have same := ok.same ok' (show window.left = r.window.left by omega)
              exact updateRecvConnectionWindowSize_prompt same.ok 0 (same.unchanged ▸ credit)
                prompt.auto prompt.queued

theorem Prompt.step {link : FlowLink} (balanced : Balanced link) (prompt : Prompt link.receiver)
    {event : FlowEvent} (steady : event.steady = true) : Prompt (link.step event).receiver := by
  have ok := balanced.receiver
  have nonneg := balanced.credit_nonneg
  -- a call of the application is refused once the connection is closed, and then changes nothing
  have call {f : WindowReceiver → WindowReceiver} (kept : Prompt (f link.receiver)) :
      Prompt (link.receive f).receiver := by
    rw [FlowLink.receive]
    split
    · exact kept
    · exact prompt
  cases event with
  | packData streamWindowSize maxFrameSize length =>
      rw [FlowLink.step]
      split <;> exact prompt
  | dataSent =>
      rw [FlowLink.step]
      cases link.sender.active <;> exact prompt
  | dataArrives readlen =>
      rw [FlowLink.step]
      cases pieces : link.data with
      | nil => exact prompt
      | cons left later =>
          dsimp only
          split
          · rename_i fits
            -- data that arrives is checked for an update at once
            have room := balanced.room pieces
            split
            · exact updateRecvConnectionWindowSize_prompt ok readlen (by omega) prompt.auto
                prompt.queued
            · exact prompt
          · exact prompt
  | consume size =>
      refine call (f := (consumeConnection · size)) ?_
      rw [consumeConnection, prompt.auto]
      exact prompt
  | submitWindowUpdate increment =>
      exact call (prompt.submitWindowUpdate (of_decide_eq_true steady))
  | setLocalWindowSize windowSize => exact call (prompt.setLocalWindowSize ok nonneg windowSize)
  | windowUpdateSent =>
      rw [FlowLink.step]
      cases frames : link.receiver.obReg with
      | nil => exact prompt
      | cons increment later =>
          dsimp only
          split
          -- the update leaves the queue, and what has arrived meanwhile is checked again
          · obtain ⟨first, popped, more⟩ := ok.popped frames
            have quiet : ReceiverOk
                { link.receiver with obReg := later, windowUpdateQueued := false } :=
              ⟨popped.window, popped.queued, popped.accepted⟩
            have credit : 0 ≤ WindowReceiver.credit { link.receiver with obReg := later } := by
              rw [more]
              omega
            show Prompt (afterWindowUpdateSent { link.receiver with obReg := later })
            rw [afterWindowUpdateSent, if_neg (by rw [prompt.auto]; exact Bool.false_ne_true)]
            exact updateRecvConnectionWindowSize_prompt quiet 0 credit prompt.auto
              fun queued => by cases queued
          · exact prompt
  | windowUpdateArrives =>
      rw [FlowLink.step]
      cases link.updates <;> exact prompt

/-- With automatic updates the sender is never locked out: whenever nothing is queued or under way
it may send at least half of the window of the receiver. -/
theorem connection_never_stalls (events : List FlowEvent)
    (steady : ∀ event ∈ events, event.steady = true) :
    let link := exec FlowLink.step (.init false) events
    link.receiver.obReg = [] → link.updates = [] → link.data = [] →
      link.receiver.window.localWindowSize ≤ 2 * link.sender.remoteWindowSize := by
  intro link quiet noUpdate noData
  have start : Balanced (.init false) ∧ Prompt (FlowLink.init false).receiver :=
    ⟨.init false, rfl, fun queued => (by cases queued), fun _ => (by decide)⟩
  obtain ⟨balanced, prompt⟩ : Balanced link ∧ Prompt link.receiver :=
    invariant_exec_of (fun link => Balanced link ∧ Prompt link.receiver)
      (fun _ event inv allowed => ⟨inv.1.step event, inv.2.step inv.1 allowed⟩) start steady
  have idle := prompt.due (Bool.eq_false_iff.mpr fun queued => prompt.queued queued quiet)
  rw [Bool.eq_false_iff, ne_eq, shouldSendWindowUpdate_iff,
    Int.tdiv_eq_ediv_of_nonneg balanced.receiver.window.size] at idle
  have credit := balanced.credit
  have size := balanced.receiver.window.size
  rw [WindowReceiver.credit, LocalWindow.left, quiet, noUpdate, noData] at credit
  simp only [List.sum_nil, Nat.cast_zero, add_zero, sub_zero] at credit
  omega

/-- Two full frames, and the update they bring about. -/
def updateRun : List FlowEvent :=
  [.packData 65535 16384 16384, .dataSent, .dataArrives 16384, .packData 49151 16384 16384,
    .dataSent, .dataArrives 16384, .windowUpdateSent, .windowUpdateArrives]

/-- Behind that run the whole window is open again. -/
theorem connection_never_stalls_update :
    (exec FlowLink.step (.init false) updateRun).receiver.window.localWindowSize ≤
      2 * (exec FlowLink.step (.init false) updateRun).sender.remoteWindowSize :=
  connection_never_stalls updateRun (by decide) (by decide) (by decide) (by decide)

end Hfc
