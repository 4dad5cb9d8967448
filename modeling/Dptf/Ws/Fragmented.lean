import Dptf.Ws.Reassembly

/-!
# Fragments at the IPF server

The IPF server buffers the fragments of a message as the server of the user interface does,
and drops them with the last one.

* `processed_iff` — **a message is processed exactly if** the fragments before the last one
  are empty.
-/

open Lib

namespace Ws

section Carries

variable {server : Server} {text : Option (List UInt8)} {frames : List WireFrame}
  {messages : List (List UInt8)}

/-- The payloads of the fragments are the messages. -/
theorem Carries.fragments (h : Carries server text frames messages) :
    text.getD [] ++ (frames.filter fun f => ¬f.IsControl).flatMap WireFrame.payload =
      messages.flatten := by
  induction h with
  | nil => rfl
  | control hcontrol _ _ ih =>
    rw [List.filter_cons_of_neg (by simpa using hcontrol)]
    exact ih
  | whole htype _ _ ih =>
    rw [List.filter_cons_of_pos (by simpa using not_isControl server (.inl htype)), List.flatMap_cons,
      List.flatten_cons, ← ih]
    rfl
  | first htype _ _ ih =>
    rw [List.filter_cons_of_pos (by simpa using not_isControl server (.inl htype)), List.flatMap_cons,
      ← ih]
    rfl
  | @more text f frames messages htype _ _ _ ih =>
    have hcontrol := not_isControl server (.inr htype)
    rw [List.filter_cons_of_pos (by simpa using hcontrol), List.flatMap_cons, ← ih,
      Option.getD_some, Option.getD_some, List.append_assoc]
  | @last text f frames messages htype _ _ _ ih =>
    have hcontrol := not_isControl server (.inr htype)
    rw [List.filter_cons_of_pos (by simpa using hcontrol), List.flatMap_cons, List.flatten_cons,
      ← ih, Option.getD_some, Option.getD_none, List.append_assoc, List.nil_append]

/-- There are as many last fragments as messages. -/
theorem Carries.count (h : Carries server text frames messages) :
    (frames.filter fun f => f.Completes).length = messages.length := by
  induction h with
  | nil => rfl
  | control hcontrol _ _ ih =>
    rw [List.filter_cons_of_neg (by simp [WireFrame.Completes, hcontrol]), ih]
  | whole htype hfin _ ih =>
    have hcompletes : WireFrame.Completes _ := ⟨not_isControl server (.inl htype), hfin⟩
    rw [List.filter_cons_of_pos (by simpa using hcompletes), List.length_cons, ih, List.length_cons]
  | first _ hfin _ ih | more _ hfin _ _ ih =>
    rw [List.filter_cons_of_neg (by simp [WireFrame.Completes, hfin]), ih]
  | last htype hfin _ _ ih =>
    have hcompletes : WireFrame.Completes _ := ⟨not_isControl server (.inr htype), hfin⟩
    rw [List.filter_cons_of_pos (by simpa using hcompletes), List.length_cons, ih, List.length_cons]

end Carries

/-- A talk of which no message is complete goes on. -/
theorem Talk.run_receiveOne_of {server : Server} {frames : List WireFrame} {t t' : Talk}
    (hrun : run (receive server) t frames = some t') (h : ∀ f ∈ frames, ¬f.Completes) :
    run (receiveOne server) (t, false) frames = some (t', false) := by
  induction frames generalizing t with
  | nil =>
    cases hrun
    rfl
  | cons f frames ih =>
    rw [List.forall_mem_cons] at h
    obtain ⟨t₁, hf, hframes⟩ := run_cons_eq_some hrun
    have hone : receiveOne server (t, false) f = some (t₁, false) := by
      simp [receiveOne, hf, h.1]
    rw [run_cons, hone, Option.bind_some]
    exact ih hframes h.2

section Message

variable {env : Env} {fuel : Nat} {frames : List WireFrame} {last : WireFrame}
  {message : List UInt8} {chunks : List (List UInt8)}

/-- No frame before the last one completes a message. -/
theorem not_completes_of_carries (hcarries : Carries .ipfSrv none (frames ++ [last]) [message])
    (hlast : last.Completes) : ∀ f ∈ frames, ¬f.Completes := by
  have hcount := hcarries.count
  rw [List.filter_append, List.filter_cons_of_pos (by simpa using hlast), List.filter_nil,
    List.length_append, List.length_singleton, List.length_singleton] at hcount
  have hnil : frames.filter (fun f => f.Completes) = [] := List.length_eq_zero_iff.mp (by omega)
  intro f hf hcompletes
  exact absurd hcompletes (by simpa using List.filter_eq_nil_iff.mp hnil f hf)

/-- The fragments before the last one make the beginning of the message. -/
theorem message_eq (hcarries : Carries .ipfSrv none (frames ++ [last]) [message])
    (hlast : last.Completes) :
    (frames.filter fun f => ¬f.IsControl).flatMap WireFrame.payload ++ last.payload = message := by
  have hfragments := hcarries.fragments
  rw [List.filter_append, List.filter_cons_of_pos (by simpa using hlast.1), List.filter_nil,
    List.flatMap_append] at hfragments
  simpa using hfragments

/-- **What is processed** is the payload of the last fragment. -/
theorem served_one (henv : env.Plenty) (hfuel : maxWebsocketBuffer.toNat ≤ fuel)
    (hcarries : Carries .ipfSrv none (frames ++ [last]) [message]) (hlast : last.Completes)
    (hmasked : ∀ f ∈ frames ++ [last], f.maskKey.isSome)
    (hmax : message.length ≤ maxWebsocketBuffer.toNat)
    (hpings : ∀ f ∈ frames ++ [last], f.ReplyFits .ipfSrv)
    (hcut : CutOf .ipfSrv (frames ++ [last]) chunks) :
    ∃ s, run (serve .ipfSrv env fuel) Session.start chunks = some s ∧ requests s.outputs =
        if HasEsifMsgHdr last.payload then [.esifMsg last.payload] else [] := by
  have hnot := not_completes_of_carries hcarries hlast
  obtain ⟨outs, hrun, hrequests, -⟩ := hcarries.talk (fun f hf _ => hmasked f hf)
    (fun m hm => by rw [List.mem_singleton.mp hm]; exact hmax) hpings []
  obtain ⟨t₁, hbefore, hrunlast⟩ := run_append_eq_some hrun
  obtain ⟨t₂, hreceive, ht₂⟩ := run_cons_eq_some hrunlast
  cases ht₂
  have hone : run (Talk.receiveOne .ipfSrv) (⟨none, []⟩, false) (frames ++ [last]) =
      some (⟨none, [] ++ outs⟩, true) := by
    rw [run_append, Talk.run_receiveOne_of hbefore hnot, Option.bind_some, run_cons]
    simp [Talk.receiveOne, hreceive, hlast]
  obtain ⟨s, hserve, -, houts⟩ := (serves_one henv hfuel).run WireFrame.encode_ne_nil
    ⟨fun _ => Session.waits_start .ipfSrv, rfl⟩ hone hcut.flatten_eq hcut.ne_nil (hcut.fits _)
  refine ⟨s, hserve, ?_⟩
  have hnil : frames.filter (fun f => f.Completes) = [] :=
    List.filter_eq_nil_iff.mpr fun f hf => by simpa using hnot f hf
  rw [houts, List.nil_append, hrequests, requestsOf, List.filter_append, hnil]
  by_cases hhdr : HasEsifMsgHdr last.payload <;> simp [hlast, hhdr]

/-- **A message is processed exactly if** no fragment before the last one has a payload. -/
theorem processed_iff (henv : env.Plenty) (hfuel : maxWebsocketBuffer.toNat ≤ fuel)
    (hcarries : Carries .ipfSrv none (frames ++ [last]) [message]) (hlast : last.Completes)
    (hmasked : ∀ f ∈ frames ++ [last], f.maskKey.isSome) (hhdr : HasEsifMsgHdr message)
    (hmax : message.length ≤ maxWebsocketBuffer.toNat)
    (hpings : ∀ f ∈ frames ++ [last], f.ReplyFits .ipfSrv)
    (hcut : CutOf .ipfSrv (frames ++ [last]) chunks) :
    (∃ s, run (serve .ipfSrv env fuel) Session.start chunks = some s ∧
      requests s.outputs = [.esifMsg message]) ↔
      ∀ f ∈ frames, ¬f.IsControl → f.payload = [] := by
  obtain ⟨s, hrun, hrequests⟩ := served_one henv hfuel hcarries hlast hmasked hmax hpings hcut
  have hmessage := message_eq hcarries hlast
  constructor
  · rintro ⟨s', hrun', hprocessed⟩
    obtain rfl : s = s' := Option.some.inj (hrun.symm.trans hrun')
    rw [hrequests] at hprocessed
    split at hprocessed
    · have hsame : last.payload = message := by simpa using hprocessed
      rw [← hsame, List.append_left_eq_self] at hmessage
      intro f hf hcontrol
      exact List.flatMap_eq_nil_iff.mp hmessage f (by simpa using ⟨hf, hcontrol⟩)
    · cases hprocessed
  · intro hempty
    have hnothing : (frames.filter fun f => ¬f.IsControl).flatMap WireFrame.payload = [] := by
      rw [List.flatMap_eq_nil_iff]
      intro f hf
      obtain ⟨hf, hcontrol⟩ := List.mem_filter.mp hf
      exact hempty f hf (by simpa using hcontrol)
    rw [hnothing, List.nil_append] at hmessage
    refine ⟨s, hrun, ?_⟩
    rw [hrequests, hmessage, if_pos hhdr]

end Message

/-- The header of a message without a body. -/
def emptyMsg : List UInt8 :=
  [0xE5, 0xD8, 0x10, 0x00, 0x00, 0x00, 0x00, 0x01, 0x49, 0x52, 0x50, 0x43, 0x00, 0x00, 0x00, 0x00]

/-- A ping, and the message in one frame. -/
def pingBefore : WireFrame := shortPing (some 0x01020304)
def wholeMsg : WireFrame :=
  shortFrame frameBinary true (some 0x0A0B0C0D) emptyMsg (by decide) (by decide)

/-- The chunks end within the frames. -/
def wholeMsgChunks : List (List UInt8) :=
  let bytes := [pingBefore, wholeMsg].flatMap WireFrame.encode
  [bytes.take 3, (bytes.drop 3).take 10, bytes.drop 13]

theorem processed_whole :
    ∃ s, run (serve .ipfSrv roomy maxWebsocketBuffer.toNat) Session.start wholeMsgChunks = some s ∧
      requests s.outputs = [.esifMsg emptyMsg] := by
  have hcarries : Carries .ipfSrv none ([pingBefore] ++ [wholeMsg]) [emptyMsg] :=
    .control (.inl rfl) rfl (.whole rfl rfl .nil)
  have hcut : CutOf .ipfSrv ([pingBefore] ++ [wholeMsg]) wholeMsgChunks :=
    cutOf_of_length_le (by decide) (by decide) (by decide)
  exact (processed_iff roomy_plenty (Nat.le_refl _) hcarries (by decide) (by decide) (by decide)
    (by decide) (by decide) hcut).mpr (by decide)

/-- The message in two fragments. -/
def headFragment : WireFrame :=
  shortFrame frameBinary false (some 0x01020304) (emptyMsg.take 4) (by decide) (by decide)
def tailFragment : WireFrame :=
  shortFrame frameContinuation true (some 0x0A0B0C0D) (emptyMsg.drop 4) frameContinuation_lt
    (by decide)

/-- Of two fragments, nothing is processed. -/
theorem fragments_dropped :
    ¬∀ (frames : List WireFrame) (last : WireFrame) (message : List UInt8)
      (chunks : List (List UInt8)),
      Carries .ipfSrv none (frames ++ [last]) [message] → last.Completes →
      (∀ f ∈ frames ++ [last], f.maskKey.isSome) → HasEsifMsgHdr message →
      message.length ≤ maxWebsocketBuffer.toNat →
      (∀ f ∈ frames ++ [last], f.ReplyFits .ipfSrv) → CutOf .ipfSrv (frames ++ [last]) chunks →
      ∃ s, run (serve .ipfSrv roomy maxWebsocketBuffer.toNat) Session.start chunks = some s ∧
        requests s.outputs = [.esifMsg message] := by
  intro h
  have hcarries : Carries .ipfSrv none ([headFragment] ++ [tailFragment]) [emptyMsg] :=
    .first rfl rfl (.last rfl rfl (by decide) .nil)
  have hcut : CutOf .ipfSrv ([headFragment] ++ [tailFragment])
      [[headFragment, tailFragment].flatMap WireFrame.encode] :=
    cutOf_of_length_le (by decide) (by decide) (by decide)
  obtain ⟨s, hrun, hprocessed⟩ := h [headFragment] tailFragment emptyMsg _ hcarries (by decide)
    (by decide) (by decide) (by decide) (by decide) hcut
  obtain ⟨s', hrun', hrequests⟩ := served_one roomy_plenty (Nat.le_refl _) hcarries (by decide)
    (by decide) (by decide) (by decide) hcut
  obtain rfl : s = s' := Option.some.inj (hrun.symm.trans hrun')
  rw [hprocessed, if_neg (by decide)] at hrequests
  cases hrequests

end Ws
