import Dptf.Ipc.Client
import Dptf.Ipc.TrxMgr

/-!
# What a stub makes of any reply

A client stub waits for its transaction, looks at the function id of what came
back, and takes over a structure and a result.  Here the reply is whatever a
message can hold, from whoever sent it under the transaction's id.

* `Stub.trusts_iff` — which replies a stub does not fall for.  The return code
  is `ESIF_OK` from the wait on, so a reply to another function passes for a
  success; and the structure of a failed call is taken over before its result
  is looked at.
-/

open Lib

namespace Irpc

/-! ## The stubs -/

/-- A client stub.  `Irpc_Request_EsifEventAction` is called with one of two functions. -/
inductive Stub
  | getConfig | setConfig | primitive | writeLog | eventRegister | eventUnregister | sendEvent
  | sendCommand
deriving DecidableEq, Repr

/-- `Irpc_Unmarshall_EsifDataPtr` copies the data into the caller's buffer. -/
def Fits (d into : EsifData) : Prop :=
  d.dataLen ≤ into.bufLen ∧ into.bufPtr ≠ none ∧ into.bufLen ≠ 0

instance (d into : EsifData) : Decidable (Fits d into) := by
  unfold Fits
  infer_instance

/-- That copy reads no more than the buffer the structure arrived in. -/
def CopiesInside (d into : EsifData) : Prop :=
  Fits d into → ∀ buf, d.bufPtr = some buf → d.dataLen.toNat ≤ buf.length

instance (d into : EsifData) : Decidable (CopiesInside d into) :=
  match h : d.bufPtr with
  | none => isTrue fun _ buf hbuf => by simp [h] at hbuf
  | some buf =>
    decidable_of_iff (Fits d into → d.dataLen.toNat ≤ buf.length)
      ⟨fun hle hfit b hb => by rw [h] at hb; cases hb; exact hle hfit,
        fun hle hfit => hle hfit buf h⟩

namespace Stub

/-- The function a stub calls. -/
def funcId : Stub → UInt32
  | getConfig => Func.esifGetConfig
  | setConfig => Func.esifSetConfig
  | primitive => Func.esifPrimitive
  | writeLog => Func.esifWriteLog
  | eventRegister => Func.esifEventRegister
  | eventUnregister => Func.esifEventUnregister
  | sendEvent => Func.esifSendEvent
  | sendCommand => Func.esifSendCommand

/-- Where the structure lies that comes back to the caller. -/
def outputAt : Stub → Option Nat
  | getConfig => some 54
  | primitive => some 66
  | sendCommand => some 54
  | _ => none

/-- The structure a reply brings for the caller. -/
def brought (stub : Stub) (m : List UInt8) : Option (Option EsifData) :=
  match stub.outputAt with
  | none => some none
  | some field => deserializeEsifDataPtr m none field (field + 4)

/-- The stub with the reply in hand: return code and the caller's structure.  None is a read
outside the message or outside the buffer that is copied from. -/
def finish (stub : Stub) (m : List UInt8) (into : EsifData) : Option (EsifError × EsifData) :=
  match stub.outputAt with
  | some field => do
    let out ← finishCall m stub.funcId field into
    match readU32 m funcIdAt, stub.brought m with
    | some id, some (some d) =>
      if id = stub.funcId ∧ ¬ CopiesInside d into then none else some out
    | _, _ => some out
  | none =>
    if m = [] then some (esifOk, into)
    else do
      let id ← readU32 m funcIdAt
      if id ≠ stub.funcId then pure (esifOk, into)
      else
        let result ← readU32 m resultAt
        pure (result, into)

/-- The stub once its thread has been signalled. -/
def resume (stub : Stub) (o : TrxObj) (into : EsifData) : Option (EsifError × EsifData) :=
  let rc := o.waitForResponse
  if rc = esifOk then
    match o.trx.response with
    | none => some (rc, into)
    | some response => stub.finish response.contents into
  else some (rc, into)

/-! ## Which replies it takes for what -/

/-- The reply is the stub's own and says that the call went well. -/
def OwnSuccess (stub : Stub) (m : List UInt8) : Prop :=
  readU32 m funcIdAt = some stub.funcId ∧ readU32 m resultAt = some esifOk

/-- The caller's structure with the type and the length of the one that asks for a larger buffer. -/
def HoldsNeeded (stub : Stub) (m : List UInt8) (into out : EsifData) : Prop :=
  readU32 m resultAt = some esifENeedLargerBuffer ∧
    ∃ d, stub.brought m = some (some d) ∧ out = { into with type := d.type, dataLen := d.dataLen }

/-- What a stub should come to: `ESIF_OK` is the stub's own success, and without that the caller
gets an error and keeps the structure, or gets the length that is needed. -/
def Trusts (stub : Stub) (m : List UInt8) (into : EsifData)
    (outcome : Option (EsifError × EsifData)) : Prop :=
  ∃ rc out, outcome = some (rc, out) ∧ (rc = esifOk → stub.OwnSuccess m) ∧
    (¬ stub.OwnSuccess m → rc ≠ esifOk ∧ (out = into ∨ stub.HoldsNeeded m into out))

/-- A structure of a failed call that does the caller no harm: it brings no bytes that are not
there already, and only a request for a larger buffer brings another type or length. -/
def Harmless (result : EsifError) (d into : EsifData) : Prop :=
  (Fits d into → ∀ buf, d.bufPtr = some buf → buf.take d.dataLen.toNat <+: into.bytes) ∧
    (d.type = into.type ∧ d.dataLen = into.dataLen ∨ result = esifENeedLargerBuffer)

/-- A reply that is what the stub takes it for: it can be read, it is the stub's own, and what
it brings of a failed call is harmless. -/
def Genuine (stub : Stub) (m : List UInt8) (into : EsifData) : Prop :=
  ∃ result p, readU32 m funcIdAt = some stub.funcId ∧ readU32 m resultAt = some result ∧
    stub.brought m = some p ∧
    ∀ d, p = some d → CopiesInside d into ∧ (result ≠ esifOk → Harmless result d into)

end Stub

theorem overwrite_zero_eq_iff {m bs : List UInt8} : overwrite m 0 bs = m ↔ bs <+: m := by
  constructor
  · intro h
    rw [← h]
    exact ⟨m.drop (0 + bs.length), by simp [overwrite]⟩
  · rintro ⟨after, rfl⟩
    simp [overwrite]

/-- What `Irpc_Unmarshall_EsifDataPtr` leaves in the caller's structure. -/
def taken (d into : EsifData) : EsifData :=
  { into with
    type := d.type
    dataLen := d.dataLen
    bufPtr := match d.bufPtr with
      | some buf =>
        if Fits d into then some (overwrite into.bytes 0 (buf.take d.dataLen.toNat))
        else into.bufPtr
      | none => into.bufPtr }

theorem unmarshall_taken {m : List UInt8} {field : Nat} {d : EsifData} (into : EsifData)
    (hd : deserializeEsifDataPtr m none field (field + 4) = some (some d)) :
    ∃ rc, unmarshallEsifDataPtr m into field (field + 4) = some (rc, taken d into) := by
  unfold unmarshallEsifDataPtr
  rw [hd]
  simp only [Option.bind_eq_bind, Option.bind_some, taken]
  by_cases hfit : Fits d into
  · rw [if_pos (show d.dataLen ≤ into.bufLen ∧ into.bufPtr ≠ none ∧ into.bufLen ≠ 0 from hfit)]
    cases hbuf : d.bufPtr with
    | none => exact ⟨esifENoMemory, by simp⟩
    | some buf => exact ⟨esifOk, by simp [hfit]⟩
  · rw [if_neg (show ¬ (d.dataLen ≤ into.bufLen ∧ into.bufPtr ≠ none ∧ into.bufLen ≠ 0) from hfit)]
    cases hbuf : d.bufPtr with
    | none => exact ⟨esifOk, by simp⟩
    | some buf => exact ⟨esifOk, by simp [hfit]⟩

/-- The buffer is the one it was just when no other bytes were copied into it. -/
theorem bufPtr_taken_eq_iff {d into : EsifData} : (taken d into).bufPtr = into.bufPtr ↔
    (Fits d into → ∀ buf, d.bufPtr = some buf → buf.take d.dataLen.toNat <+: into.bytes) := by
  unfold taken
  cases hbuf : d.bufPtr with
  | none => simp
  | some buf =>
    by_cases hfit : Fits d into
    · obtain ⟨bytes, hbytes⟩ := Option.ne_none_iff_exists'.mp hfit.2.1
      have hsame : into.bytes = bytes := by simp [EsifData.bytes, hbytes]
      simp only [hfit, if_true, hbytes, hsame, Option.some.injEq, overwrite_zero_eq_iff,
        forall_const, forall_eq']
    · simp [hfit]

/-- The caller's structure after a reply of the stub's own function. -/
def takenFrom (p : Option EsifData) (into : EsifData) : EsifData :=
  match p with
  | none => into
  | some d => taken d into

theorem esifData_eq {a b : EsifData} (htype : a.type = b.type) (hbuf : a.bufPtr = b.bufPtr)
    (hlen : a.bufLen = b.bufLen) (hdata : a.dataLen = b.dataLen) : a = b := by
  cases a
  cases b
  simp_all

/-- What is left is the caller's structure just when it is not harmed, or shows the length that
is needed. -/
theorem taken_harmless_iff {d into : EsifData} {result : EsifError} :
    Stub.Harmless result d into ↔ taken d into = into ∨ result = esifENeedLargerBuffer ∧
      taken d into = { into with type := d.type, dataLen := d.dataLen } := by
  have hlen : (taken d into).bufLen = into.bufLen := rfl
  have hsame : taken d into = into ↔
      (d.type = into.type ∧ d.dataLen = into.dataLen) ∧ (taken d into).bufPtr = into.bufPtr := by
    constructor
    · intro h
      have htype : (taken d into).type = into.type := congrArg EsifData.type h
      have hdata : (taken d into).dataLen = into.dataLen := congrArg EsifData.dataLen h
      exact ⟨⟨htype, hdata⟩, congrArg EsifData.bufPtr h⟩
    · rintro ⟨⟨htype, hdata⟩, hbuf⟩
      exact esifData_eq htype hbuf hlen hdata
  have hneeds : taken d into = { into with type := d.type, dataLen := d.dataLen } ↔
      (taken d into).bufPtr = into.bufPtr := by
    constructor
    · intro h
      rw [h]
    · intro hbuf
      exact esifData_eq rfl hbuf hlen rfl
  rw [Stub.Harmless, ← bufPtr_taken_eq_iff, hsame, hneeds]
  tauto

namespace Stub

variable {stub : Stub} {m : List UInt8} {into : EsifData}

/-- **A reply to another function** is an `ESIF_OK`. -/
theorem finish_foreign (hne : m ≠ []) {id : UInt32} (hid : readU32 m funcIdAt = some id)
    (hother : id ≠ stub.funcId) : stub.finish m into = some (esifOk, into) := by
  unfold finish
  cases hout : stub.outputAt with
  | none => simp [hne, hid, hother]
  | some field =>
    simp only [finishCall, hne, if_false, hid, Option.bind_eq_bind, Option.bind_some, hother,
      not_false_eq_true, if_true, Option.pure_def, ne_eq]
    cases stub.brought m with
    | none => rfl
    | some p =>
      cases p with
      | none => rfl
      | some d => simp [hother]

theorem finish_unread (hne : m ≠ []) (hid : readU32 m funcIdAt = none) :
    stub.finish m into = none := by
  unfold finish
  cases hout : stub.outputAt with
  | none => simp [hne, hid]
  | some field => simp [finishCall, hne, hid]

/-- **A reply of the own function** is taken over whatever its result; its error is returned. -/
theorem finish_own (hid : readU32 m funcIdAt = some stub.funcId) {result : EsifError}
    (hres : readU32 m resultAt = some result) {p : Option EsifData}
    (hp : stub.brought m = some p) (hin : ∀ d, p = some d → CopiesInside d into) :
    ∃ rc, stub.finish m into = some (rc, takenFrom p into) ∧ (result ≠ esifOk → rc = result) := by
  have hne : m ≠ [] := by
    rintro rfl
    simp [readU32, readAt, funcIdAt] at hid
  unfold finish brought at *
  cases hout : stub.outputAt with
  | none =>
    rw [hout] at hp
    cases hp
    exact ⟨result, by simp [hne, hid, hres, takenFrom], fun _ => rfl⟩
  | some field =>
    rw [hout] at hp
    dsimp only at hp
    cases p with
    | none =>
      refine ⟨if result ≠ esifOk then result else esifEParameterIsNull, ?_, fun h => if_pos h⟩
      have hrc : esifEParameterIsNull ≠ esifOk := by decide
      simp [finishCall, hne, hid, hres, unmarshallEsifDataPtr, hp, hrc, takenFrom]
    | some d =>
      obtain ⟨rc, hrc⟩ := unmarshall_taken into hp
      have hinside := hin d rfl
      refine ⟨if rc = esifOk ∨ result ≠ esifOk then result else rc, ?_, fun h => if_pos (.inr h)⟩
      simp [finishCall, hne, hid, hres, hrc, hp, hinside, takenFrom]

/-- A reply of the own function that can be read brings all its parts. -/
theorem brought_of_finish (hid : readU32 m funcIdAt = some stub.funcId)
    {outcome : EsifError × EsifData} (h : stub.finish m into = some outcome) :
    ∃ result p, readU32 m resultAt = some result ∧ stub.brought m = some p ∧
      ∀ d, p = some d → CopiesInside d into := by
  have hne : m ≠ [] := by
    rintro rfl
    simp [readU32, readAt, funcIdAt] at hid
  unfold finish brought at *
  cases hout : stub.outputAt with
  | none =>
    simp only [hout, hne, if_false, hid, Option.bind_eq_bind, Option.bind_some, ne_eq,
      not_true_eq_false] at h
    obtain ⟨result, hres, -⟩ := Option.bind_eq_some_iff.mp h
    exact ⟨result, none, hres, rfl, by simp⟩
  | some field =>
    simp only [hout, finishCall, hne, if_false, hid, Option.bind_eq_bind, Option.bind_some, ne_eq,
      not_true_eq_false] at h
    obtain ⟨out, hcall, hcopy⟩ := Option.bind_eq_some_iff.mp h
    obtain ⟨taken, hun, hrest⟩ := Option.bind_eq_some_iff.mp hcall
    obtain ⟨result, hres, -⟩ := Option.bind_eq_some_iff.mp hrest
    obtain ⟨p, hp, -⟩ := Option.bind_eq_some_iff.mp hun
    refine ⟨result, p, hres, hp, ?_⟩
    rintro d rfl
    by_contra hout'
    simp [hp, hout'] at hcopy

/-- **What a stub may trust.**  The outcome is what it should be just when the reply is the
stub's own, and the structure of a failed call is absent or harmless. -/
theorem trusts_finish_iff (hne : m ≠ []) :
    stub.Trusts m into (stub.finish m into) ↔ stub.Genuine m into := by
  constructor
  · rintro ⟨rc, out, hfin, hok, herr⟩
    cases hread : readU32 m funcIdAt with
    | none => simp [finish_unread hne hread] at hfin
    | some id =>
      by_cases hid : id = stub.funcId
      · subst hid
        obtain ⟨result, p, hres, hp, hin⟩ := brought_of_finish hread hfin
        refine ⟨result, p, hread, hres, hp, fun d hd => ⟨hin d hd, fun hbad => ?_⟩⟩
        subst hd
        obtain ⟨rc', hfin', -⟩ := finish_own hread hres hp hin
        rw [hfin] at hfin'
        obtain ⟨rfl, rfl⟩ := Prod.mk.inj (Option.some.inj hfin')
        have hnot : ¬ stub.OwnSuccess m := fun h => hbad (Option.some.inj (hres ▸ h.2))
        rcases (herr hnot).2 with hsame | ⟨hneed, d', hd', hout⟩
        · exact taken_harmless_iff.mpr (Or.inl hsame)
        · obtain rfl : d = d' := by
            rw [hp] at hd'
            simpa using hd'
          exact taken_harmless_iff.mpr (Or.inr ⟨Option.some.inj (hres ▸ hneed), hout⟩)
      · rw [finish_foreign hne hread hid] at hfin
        cases hfin
        exact absurd (Option.some.inj (hread ▸ (hok rfl).1)) hid
  · rintro ⟨result, p, hid, hres, hp, hall⟩
    obtain ⟨rc, hfin, hrc⟩ := finish_own hid hres hp fun d hd => (hall d hd).1
    refine ⟨rc, _, hfin, fun hok => ⟨hid, ?_⟩, fun hnot => ?_⟩
    · by_cases hgood : result = esifOk
      · rw [hres, hgood]
      · exact absurd (hrc hgood ▸ hok) hgood
    · have hbad : result ≠ esifOk := fun h => hnot ⟨hid, h ▸ hres⟩
      refine ⟨hrc hbad ▸ hbad, ?_⟩
      cases p with
      | none => exact Or.inl rfl
      | some d =>
        rcases taken_harmless_iff.mp ((hall d rfl).2 hbad) with hsame | ⟨hneed, hout⟩
        · exact Or.inl hsame
        · exact Or.inr ⟨hneed ▸ hres, d, hp, hout⟩

/-! ## The woken thread -/

theorem resume_complete {o : TrxObj} (ho : o.trx.result = esifOk) {r : Reply} :
    stub.resume (o.complete (IBinary.create.clone r.payload)) into =
      stub.finish r.payload into := by
  have hwait : (o.complete (IBinary.create.clone r.payload)).waitForResponse = esifOk := by
    simp [TrxObj.waitForResponse, TrxObj.complete, TrxObj.signal, ho,
      show esifOk ≠ esifESessionRequestFailed by decide]
  rw [resume, hwait]
  simp [TrxObj.complete]

theorem waitForResponse_ne {o : TrxObj} (ho : o.trx.result ≠ esifOk) :
    o.waitForResponse ≠ esifOk := by
  unfold TrxObj.waitForResponse
  rw [if_neg fun h => ho h.1]
  split
  · decide
  · exact ho

theorem resume_failed {o : TrxObj} (ho : o.trx.result ≠ esifOk) {r : Reply} :
    ∃ rc, rc ≠ esifOk ∧
      stub.resume (o.complete (IBinary.create.clone r.payload)) into = some (rc, into) := by
  have hwait : (o.complete (IBinary.create.clone r.payload)).waitForResponse ≠ esifOk :=
    waitForResponse_ne ho
  exact ⟨_, hwait, by rw [resume, if_neg hwait]⟩

/-- **A call succeeds only on its own successful reply** just when the transaction had failed
before or the reply is genuine. -/
theorem trusts_iff (stub : Stub) (o : TrxObj) {r : Reply} (hr : r.cloned = true)
    (into : EsifData) :
    stub.Trusts r.payload into (stub.resume (o.complete (IBinary.create.clone r.payload)) into) ↔
      o.trx.result ≠ esifOk ∨ stub.Genuine r.payload into := by
  have hne : r.payload ≠ [] := by
    rintro h
    simp [Reply.cloned, h] at hr
  by_cases ho : o.trx.result = esifOk
  · rw [resume_complete ho, trusts_finish_iff hne, or_iff_right (not_not_intro ho)]
  · obtain ⟨rc, hrc, hres⟩ := @resume_failed stub into o ho r
    refine iff_of_true ⟨rc, into, hres, fun h => absurd h hrc, fun _ => ⟨hrc, Or.inl rfl⟩⟩
      (Or.inl ho)

/-- A transaction whose thread waits. -/
def waitingTrx : TrxObj :=
  ⟨⟨1, 7, ⟨0, 0⟩, none, none, esifOk⟩, 2, .waiting, 0, 1⟩

/-- A reply under its id to another function, which failed. -/
def foreignReply : Reply :=
  ⟨7, pack (esifHdr .procResponse Func.esifSendEvent
    ⟨1, 7, ⟨0, 0⟩, none, none, esifENotFound⟩ 1), true⟩

/-- The reply of the function, which went well. -/
def ownReply : Reply :=
  ⟨7, pack (esifHdr .procResponse Func.esifSetConfig ⟨1, 7, ⟨0, 0⟩, none, none, esifOk⟩ 1), true⟩

/-- A failed event passes for a successful `EsifSetConfig`. -/
theorem not_trusts_foreignReply : ¬ setConfig.Trusts foreignReply.payload ⟨0, none, 0, 0⟩
    (setConfig.resume (waitingTrx.complete (IBinary.create.clone foreignReply.payload))
      ⟨0, none, 0, 0⟩) := by
  have hread : readU32 foreignReply.payload funcIdAt = some Func.esifSendEvent := by
    decide +kernel
  rw [resume_complete rfl, finish_foreign (by decide) hread (by decide)]
  rintro ⟨rc, out, hout, hok, -⟩
  obtain ⟨rfl, rfl⟩ := Prod.mk.inj (Option.some.inj hout)
  have hown := (hok rfl).1
  rw [hread] at hown
  revert hown
  decide

/-- The own reply is trusted. -/
theorem trusts_ownReply : setConfig.Trusts ownReply.payload ⟨0, none, 0, 0⟩
    (setConfig.resume (waitingTrx.complete (IBinary.create.clone ownReply.payload))
      ⟨0, none, 0, 0⟩) :=
  (trusts_iff setConfig waitingTrx (by decide) ⟨0, none, 0, 0⟩).mpr
    (Or.inr ⟨esifOk, none, by decide +kernel, by decide +kernel, rfl, by simp⟩)

end Stub

end Irpc
