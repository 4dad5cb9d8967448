import Dptf.Ws.ClientLoop

/-!
# When the client's loop ends

The outer loop of `IpcSession_IoWorkerThread` waits for its doorbell and for its socket, and
goes on while `bytesReceived` is positive or `select` has timed out.  `bytesReceived` is 0 up to
the first receive, and a wake-up by the doorbell alone does not change it.

* `ioRun_goesOn_iff` — **when it ends on nothing else**.
-/

open Lib

namespace Ws

variable {t t' : IoThread}

/-! ## A frame that ends the connection -/

namespace IoWorker

/-- What a turn of the inner loop gives to the switch. -/
def dispatched (env : IoEnv) (w : IoWorker) (nextBuf bytesReceived : Nat) :
    Option (FrameType × List UInt8) :=
  let frame := peekN w.recvBuf nextBuf (bytesReceived - nextBuf)
  let header := readSocketFrameHeader frame
  let info := esifWsGetFrameType frame
  let w :=
    match info.data with
    | some (data, dataSize) => { w with data := some (nextBuf + data), dataSize }
    | none => w
  match info.frameType with
  | .frame mode =>
    if header.maskFlag ≠ 0 then none
    else if header.fin = 0 ∨ mode = .continuation then
      let fragments := w.fragmentBuf.getD []
      if env.realloc w.fragmentBuf (fragments.length + w.dataSize) ∧ header.fin ≠ 0 then
        some (w.fragmentType, fragments ++ w.messageBuf)
      else none
    else some (.frame mode, w.messageBuf)
  | _ => none

/-- The frame of a turn is malformed, or it is dispatched and closes the connection or its handler
fails. -/
def TurnBreaks (env : IoEnv) (w : IoWorker) (nextBuf bytesReceived : Nat) : Prop :=
  (esifWsGetFrameType (peekN w.recvBuf nextBuf (bytesReceived - nextBuf))).frameType =
      .errorFrame ∨
    ∃ frameType message, dispatched env w nextBuf bytesReceived = some (frameType, message) ∧
      (frameType = .frame .closing ∨ (processFrame env frameType message).1 ≠ esifOk)

/-- A turn of the inner loop does so. -/
def LoopBreaks (env : IoEnv) (bytesReceived : Nat) : Nat → IoWorker → Nat → Prop
  | 0, _, _ => False
  | fuel + 1, w, nextBuf =>
    TurnBreaks env w nextBuf bytesReceived ∨
      ∃ n, (frameTurn env w nextBuf bytesReceived).2 = .next n ∧
        LoopBreaks env bytesReceived fuel (frameTurn env w nextBuf bytesReceived).1 n

/-- The buffer with a chunk, as the inner loop finds it. -/
def received (w : IoWorker) (chunk : List UInt8) : IoWorker :=
  { w with recvBuf := w.recvBuf.take w.recvBufLen ++ chunk, maxRecvBuf := w.grown }

/-- `bytesReceived` behind `recv`, with what was held added as an `int`. -/
def bytesWith (w : IoWorker) (chunk : List UInt8) : Nat :=
  (chunk.length + intOfSize w.recvBufLen) % 2 ^ 64

/-- A frame of the chunk ends the connection. -/
def Breaks (env : IoEnv) (w : IoWorker) (chunk : List UInt8) : Prop :=
  LoopBreaks env (w.bytesWith chunk) (w.bytesWith chunk + 1) (w.received chunk) 0

section Turn

variable {env : IoEnv} {w : IoWorker} {nextBuf bytesReceived bytesRemaining : Nat}
variable {frameType : FrameType} {message : List UInt8}

theorem nextFrameLabel_ne_close : (w.nextFrameLabel bytesReceived bytesRemaining).2 ≠ .close := by
  unfold nextFrameLabel
  dsimp only
  split
  · exact After.noConfusion
  · dsimp only
    split <;> exact After.noConfusion

@[simp] theorem nextFrameLabel_connected :
    (w.nextFrameLabel bytesReceived bytesRemaining).1.connected = w.connected := by
  unfold nextFrameLabel
  dsimp only
  split
  · rfl
  · dsimp only
    split <;> rfl

theorem process_close_iff :
    (w.process env frameType message bytesReceived bytesRemaining).2 = .close ↔
      (processFrame env frameType message).1 ≠ esifOk := by
  unfold process
  dsimp only
  split
  · rename_i hok
    simp [hok, nextFrameLabel_ne_close]
  · rename_i hfails
    simp [hfails]

@[simp] theorem process_connected :
    (w.process env frameType message bytesReceived bytesRemaining).1.connected = w.connected := by
  unfold process
  dsimp only
  split
  · simp
  · rfl

theorem takeFragment_close_iff {mode : Opcode} {fin : UInt8} :
    (w.takeFragment env mode fin bytesReceived bytesRemaining).2 = .close ↔
      (env.realloc w.fragmentBuf ((w.fragmentBuf.getD []).length + w.dataSize) ∧ fin ≠ 0) ∧
        (processFrame env w.fragmentType (w.fragmentBuf.getD [] ++ w.messageBuf)).1 ≠ esifOk := by
  unfold takeFragment
  dsimp only
  split
  · rename_i hmem
    split
    · rename_i hfin
      simpa [hmem, hfin] using process_close_iff
    · rename_i hfin
      simp [hfin, nextFrameLabel_ne_close]
  · rename_i hmem
    simp [hmem]

@[simp] theorem takeFragment_connected {mode : Opcode} {fin : UInt8} :
    (w.takeFragment env mode fin bytesReceived bytesRemaining).1.connected = w.connected := by
  unfold takeFragment
  dsimp only
  split
  · split <;> simp
  · rfl

/-- A closing frame is a failing one. -/
theorem closing_or_fails_iff :
    frameType = .frame .closing ∨ (processFrame env frameType message).1 ≠ esifOk ↔
      (processFrame env frameType message).1 ≠ esifOk := by
  refine ⟨?_, .inr⟩
  rintro (rfl | hfails)
  · exact (by decide : esifEWsDisc ≠ esifOk)
  · exact hfails

end Turn

/-- The message of a fragment, or of a frame of its own, is dispatched. -/
theorem dispatches_iff {mem : Prop} [Decidable mem] {frameType : FrameType} {message : List UInt8} :
    (∃ t m, (if mem then some (frameType, message) else none) = some (t, m) ∧
        (processFrame env t m).1 ≠ esifOk) ↔
      mem ∧ (processFrame env frameType message).1 ≠ esifOk := by
  constructor
  · rintro ⟨t, m, h, hfails⟩
    obtain ⟨hmem, ⟨⟩⟩ := Option.ite_none_right_eq_some.mp h
    exact ⟨hmem, hfails⟩
  · rintro ⟨hmem, hfails⟩
    exact ⟨_, _, if_pos hmem, hfails⟩

/-- **A turn closes the connection exactly if its frame breaks it.** -/
theorem frameTurn_close_iff (env : IoEnv) (w : IoWorker) (nextBuf bytesReceived : Nat) :
    (frameTurn env w nextBuf bytesReceived).2 = .close ↔
      TurnBreaks env w nextBuf bytesReceived := by
  unfold TurnBreaks
  simp only [closing_or_fails_iff]
  unfold frameTurn dispatched
  dsimp only
  cases hinfo : (esifWsGetFrameType
      (peekN w.recvBuf nextBuf (bytesReceived - nextBuf))).frameType with
  | errorFrame => simp
  | incompleteFrame => simp
  | frame mode =>
    cases (esifWsGetFrameType (peekN w.recvBuf nextBuf (bytesReceived - nextBuf))).data <;>
    · dsimp only
      split
      · simp [nextFrameLabel_ne_close]
      · split
        · rw [takeFragment_close_iff, dispatches_iff]
          simp [messageBuf]
        · rw [process_close_iff]
          simp [messageBuf]

/-- Only a close says that the connection has ended. -/
theorem frameTurn_connected (env : IoEnv) (w : IoWorker) (nextBuf bytesReceived : Nat) :
    (frameTurn env w nextBuf bytesReceived).1.connected = w.connected := by
  unfold frameTurn
  dsimp only
  cases (esifWsGetFrameType
      (peekN w.recvBuf nextBuf (bytesReceived - nextBuf))).frameType with
  | errorFrame | incompleteFrame =>
    cases (esifWsGetFrameType (peekN w.recvBuf nextBuf (bytesReceived - nextBuf))).data <;> rfl
  | frame mode =>
    cases (esifWsGetFrameType (peekN w.recvBuf nextBuf (bytesReceived - nextBuf))).data <;>
    · dsimp only
      split
      · simp
      · split <;> simp

/-- **The inner loop ends the connection exactly if a frame does.** -/
theorem frameLoop_connected_iff (env : IoEnv) (bytesReceived : Nat) {fuel : Nat}
    {w w' : IoWorker} {nextBuf : Nat} (hconnected : w.connected = true)
    (hloop : frameLoop env bytesReceived fuel w nextBuf = some w') :
    w'.connected = false ↔ LoopBreaks env bytesReceived fuel w nextBuf := by
  induction fuel generalizing w nextBuf with
  | zero => cases hloop
  | succ fuel ih =>
    rw [LoopBreaks, ← frameTurn_close_iff]
    rw [frameLoop] at hloop
    have hkept := frameTurn_connected env w nextBuf bytesReceived
    rw [hconnected] at hkept
    generalize frameTurn env w nextBuf bytesReceived = turn at hloop hkept
    obtain ⟨w₁, after⟩ := turn
    cases after with
    | next n => simpa using ih hkept hloop
    | leave =>
      cases hloop
      simpa using hkept
    | close =>
      cases hloop
      simp

/-- A receive ends the connection if the buffer cannot grow, or if a frame does. -/
theorem ioReceive_connected_iff {env : IoEnv} {w w' : IoWorker} {chunk : List UInt8}
    (hmem : ¬(w.maxRecvBuf ≤ w.recvBufLen ∧ env.malloc w.grown = false))
    (h : ioReceive env w chunk = some w') : w'.connected = false ↔ w.Breaks env chunk := by
  unfold ioReceive at h
  obtain ⟨⟨hconnected, _⟩, h⟩ := Option.ite_none_right_eq_some.mp h
  rw [if_neg hmem] at h
  exact frameLoop_connected_iff env _ (w := w.received chunk) hconnected h

end IoWorker

/-! ## The outer loop -/

/-- `WS_OPCODE_QUIT`. -/
def wsOpcodeQuit : UInt8 := 255

/-- The doorbell is not set, its `recv` gives no byte, or it gives one. -/
inductive Doorbell
  | silent
  | failed
  | rung (opcode : UInt8)
deriving DecidableEq, Repr

/-- What `recv` returns for the socket. -/
inductive ClientRecv
  | data (chunk : List UInt8)
  | closed
  | socketError
deriving DecidableEq, Repr

/-- How `select` returns: with nothing, or with what is set, also where it has failed.  `recv` is
called if the socket can be read. -/
inductive Wake
  | timeout
  | activity (selectFailed : Bool) (doorbell : Doorbell) (exceptFD : Bool)
      (recv : Option ClientRecv)
deriving DecidableEq, Repr

/-- What a turn of the outer loop meets. -/
structure IoEvent where
  env : IoEnv
  wake : Wake

/-- The thread in its outer loop. -/
structure IoThread where
  worker : IoWorker
  bytesReceived : Nat
  running : Bool
deriving DecidableEq, Repr

/-- The thread behind the handshake.  `IpcSession_Connect` has cleared `bytesReceived`. -/
def IoThread.start : IoThread := ⟨.start, 0, true⟩

/-- The receive buffer is full, and cannot grow. -/
def IoWorker.CannotGrow (w : IoWorker) (env : IoEnv) : Prop :=
  w.maxRecvBuf ≤ w.recvBufLen ∧ env.malloc w.grown = false

instance (w : IoWorker) (env : IoEnv) : Decidable (w.CannotGrow env) :=
  inferInstanceAs (Decidable (_ ∧ _))

/-- The part of a turn behind `select`.  The messages that are sent in it end no loop but their
own. -/
def IoThread.onActivity (t : IoThread) (env : IoEnv) (selectFailed : Bool) (doorbell : Doorbell)
    (exceptFD : Bool) (recv : Option ClientRecv) : Option IoThread :=
  let bytesReceived := if selectFailed then 0 else t.bytesReceived
  let worker := { t.worker with maxRecvBuf := t.worker.grown }
  if doorbell = .failed ∨ doorbell = .rung wsOpcodeQuit then some ⟨worker, bytesReceived, false⟩
  else if exceptFD then some ⟨worker, bytesReceived, false⟩
  else
    match recv with
    | none => some ⟨worker, bytesReceived, 0 < bytesReceived⟩
    | some .closed => some ⟨worker, 0, false⟩
    | some .socketError => some ⟨worker, 2 ^ 64 - 1, false⟩
    | some (.data chunk) =>
      (t.worker.ioReceive env chunk).map fun worker =>
        let bytesReceived := if worker.connected then t.worker.bytesWith chunk else 0
        ⟨worker, bytesReceived, 0 < bytesReceived⟩

/-- A turn of the outer loop, with its condition at the end. -/
def ioStep (t : IoThread) (e : IoEvent) : Option IoThread :=
  if t.running = false then none
  else if t.worker.CannotGrow e.env then some { t with running := false }
  else
    match e.wake with
    | .timeout => some { t with worker := { t.worker with maxRecvBuf := t.worker.grown } }
    | .activity selectFailed doorbell exceptFD recv =>
      t.onActivity e.env selectFailed doorbell exceptFD recv

/-! ## What the loop may end on -/

/-- There is a quit opcode, an error of a socket, the peer has closed, or a frame ends the
connection. -/
def IoEvent.Excused (e : IoEvent) (t : IoThread) : Prop :=
  match e.wake with
  | .timeout => False
  | .activity selectFailed doorbell exceptFD recv =>
    selectFailed = true ∨ doorbell = .failed ∨ doorbell = .rung wsOpcodeQuit ∨
      exceptFD = true ∨ recv = some .closed ∨ recv = some .socketError ∨
        ∃ chunk, recv = some (.data chunk) ∧ t.worker.Breaks e.env chunk

/-- A wake-up on which nothing is received. -/
def IoEvent.IsIdle (e : IoEvent) : Prop :=
  ∃ selectFailed doorbell exceptFD, e.wake = .activity selectFailed doorbell exceptFD none

/-- A wake-up on which data are received. -/
def IoEvent.Gives (e : IoEvent) (chunk : List UInt8) : Prop :=
  ∃ selectFailed doorbell exceptFD,
    e.wake = .activity selectFailed doorbell exceptFD (some (.data chunk))

/-- **A turn that is not excused goes on exactly if** it is not idle before `bytesReceived` is
set, its receive buffer can grow, and the bytes held, as an `int`, do not bring the count of
those received to 0. -/
theorem ioStep_running_iff {e : IoEvent} (hstep : ioStep t e = some t') (hexcused : ¬e.Excused t) :
    t'.running = true ↔ (e.IsIdle → 0 < t.bytesReceived) ∧ ¬t.worker.CannotGrow e.env ∧
      ∀ chunk, e.Gives chunk → t.worker.bytesWith chunk ≠ 0 := by
  obtain ⟨env, wake⟩ := e
  unfold ioStep at hstep
  split at hstep
  · cases hstep
  · rename_i hrunning
    split at hstep
    · rename_i hgrow
      cases hstep
      simp [hgrow]
    · rename_i hgrow
      cases wake with
      | timeout =>
        cases hstep
        simp_all [IoEvent.IsIdle, IoEvent.Gives]
      | activity selectFailed doorbell exceptFD recv =>
        simp only [IoEvent.Excused, not_or] at hexcused
        obtain ⟨hselect, hfailed, hquit, hexcept, hclosed, herror, hbreaks⟩ := hexcused
        simp only [IoThread.onActivity] at hstep
        rw [if_neg (by tauto), if_neg hexcept, if_neg hselect] at hstep
        cases recv with
        | none =>
          cases hstep
          simp [IoEvent.IsIdle, IoEvent.Gives, hgrow]
        | some recv =>
          cases recv with
          | closed => exact absurd rfl hclosed
          | socketError => exact absurd rfl herror
          | data chunk =>
            obtain ⟨worker, hreceive, rfl⟩ := Option.map_eq_some_iff.mp hstep
            have hconnected : worker.connected = true := by
              by_contra hfalse
              exact hbreaks ⟨chunk, rfl, (IoWorker.ioReceive_connected_iff hgrow hreceive).mp
                (by simpa using hfalse)⟩
            simp [IoEvent.IsIdle, IoEvent.Gives, hgrow, hconnected, Nat.pos_iff_ne_zero]

/-- **While the loop runs, `bytesReceived` is set exactly if data were received.** -/
theorem ioStep_bytesReceived {e : IoEvent} (hstep : ioStep t e = some t')
    (hrunning : t'.running = true) :
    0 < t'.bytesReceived ↔ 0 < t.bytesReceived ∨ ∃ chunk, e.Gives chunk := by
  obtain ⟨env, wake⟩ := e
  unfold ioStep at hstep
  split at hstep
  · cases hstep
  · split at hstep
    · cases hstep
      cases hrunning
    · cases wake with
      | timeout =>
        cases hstep
        simp [IoEvent.Gives]
      | activity selectFailed doorbell exceptFD recv =>
        simp only [IoThread.onActivity] at hstep
        split at hstep
        · cases hstep
          cases hrunning
        · split at hstep
          · cases hstep
            cases hrunning
          · cases recv with
            | none =>
              cases hstep
              cases selectFailed <;> simp_all [IoEvent.Gives]
            | some recv =>
              cases recv with
              | closed => cases hstep; cases hrunning
              | socketError => cases hstep; cases hrunning
              | data chunk =>
                obtain ⟨worker, _, rfl⟩ := Option.map_eq_some_iff.mp hstep
                simp only [decide_eq_true_eq] at hrunning
                simp [IoEvent.Gives, hrunning]

/-! ## Runs -/

/-- A run that does not end with its last turn has set `bytesReceived` exactly if data were
received in it. -/
theorem run_ioStep_bytesReceived {events : List IoEvent} (hrun : run ioStep t events = some t')
    (hrunning : t'.running = true) :
    0 < t'.bytesReceived ↔ 0 < t.bytesReceived ∨ ∃ e ∈ events, ∃ chunk, e.Gives chunk := by
  induction events generalizing t with
  | nil =>
    obtain rfl : t = t' := by simpa using hrun
    simp
  | cons e events ih =>
    obtain ⟨t₁, hstep, hrest⟩ := run_cons_eq_some hrun
    have hrunning₁ : t₁.running = true := by
      cases events with
      | nil =>
        obtain rfl : t₁ = t' := by simpa using hrest
        exact hrunning
      | cons e' events =>
        obtain ⟨t₂, hstep₂, _⟩ := run_cons_eq_some hrest
        by_contra hended
        simp [ioStep, hended] at hstep₂
    rw [ih hrest, ioStep_bytesReceived hstep hrunning₁]
    simp only [List.mem_cons, exists_eq_or_imp, or_assoc]

/-- A turn in a run of the thread. -/
structure IsTurn (events before : List IoEvent) (e : IoEvent) (t t' : IoThread) : Prop where
  inRun : before ++ [e] <+: events
  reached : run ioStep .start before = some t
  step : ioStep t e = some t'

/-- **The loop runs on** behind every turn that is not excused. -/
def GoesOn (events : List IoEvent) : Prop :=
  ∀ before e t t', IsTurn events before e t t' → ¬e.Excused t → t'.running = true

/-- No turn that is not excused is idle before data were received, fails to enlarge the receive
buffer, or brings the count of received bytes to 0. -/
def NeverStarved (events : List IoEvent) : Prop :=
  ∀ before e t t', IsTurn events before e t t' → ¬e.Excused t →
    (e.IsIdle → ∃ e' ∈ before, ∃ chunk, e'.Gives chunk) ∧ ¬t.worker.CannotGrow e.env ∧
      ∀ chunk, e.Gives chunk → t.worker.bytesWith chunk ≠ 0

/-- **When the connection survives**: in any run, the loop ends on nothing that it may not end on
if and only if there is no wake-up without data before the first data, and memory and the count
of received bytes hold out. -/
theorem ioRun_goesOn_iff (events : List IoEvent) : GoesOn events ↔ NeverStarved events := by
  refine forall_congr' fun before => forall_congr' fun e => forall_congr' fun t =>
    forall_congr' fun t' => forall_congr' fun hturn => forall_congr' fun hexcused => ?_
  have hrunning : t.running = true := by
    by_contra hended
    have hstep := hturn.step
    simp [ioStep, hended] at hstep
  have hreceived := run_ioStep_bytesReceived hturn.reached hrunning
  rw [ioStep_running_iff hturn.step hexcused, hreceived]
  simp [IoThread.start]

/-- Everything succeeds. -/
def easyIoEnv : IoEnv := ⟨fun _ => true, fun _ => esifOk, esifOk⟩

/-- The doorbell rings before the server has sent anything. -/
theorem ioRun_not_goesOn :
    ¬ GoesOn [⟨easyIoEnv, .activity false (.rung 0) false none⟩] := by
  intro h
  have hturn : IsTurn [⟨easyIoEnv, .activity false (.rung 0) false none⟩] []
      ⟨easyIoEnv, .activity false (.rung 0) false none⟩ .start ⟨.start, 0, false⟩ :=
    ⟨List.prefix_refl _, rfl, rfl⟩
  have hrunning := h _ _ _ _ hturn (by simp [IoEvent.Excused, wsOpcodeQuit])
  exact absurd hrunning (by decide)

end Ws
