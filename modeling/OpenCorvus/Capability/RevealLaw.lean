import OpenCorvus.Capability.RevealChain
import OpenCorvus.Foundation.ListUpdate

/-!
# The reveals of a Session form one chain

In every run the committed reveals form a chain, their parts are the completed searches of the occurrence, and
every open call has read the state of a first part of the chain without its own call.  A commit on an older state
is refused by its revision, so what it commits extends the chain.
-/

namespace OpenCorvus.Capability

open EcmaScript Transaction ExecutableSystem List Option RevealSession ToolPart
open Json (canonicalJSONValue)

variable {authority : RevealAuthority} {s s' : RevealSession}

/-! ## The parts of the occurrence -/

def RevealSession.StoresReveal (s : RevealSession) (occurrenceID : String) (part : ToolPart) : Bool :=
  decide (part.messageID ∈ s.occurrenceAssistantMessageIDs occurrenceID) && part.search?.isSome

lemma transactionParts_filter (s : RevealSession) (occurrenceID : String) :
    ((s.transactionParts occurrenceID).filter fun part => part.search?.isSome) =
      s.parts.filter (s.StoresReveal occurrenceID) := by
  rw [transactionParts, List.filter_filter]
  exact filter_congr fun part _ => Bool.and_comm _ _

lemma occurrenceParts_perm (hids : (s.messages.map OccurrenceMessage.id).Nodup) (occurrenceID : String) :
    (s.capabilityRevealOccurrenceParts occurrenceID).Perm (s.transactionParts occurrenceID) := by
  have hnodup : (s.occurrenceAssistantMessageIDs occurrenceID).Nodup :=
    hids.sublist (List.Sublist.map _ filter_sublist)
  have hperm : ∀ ids : List String, ids.Nodup →
      (ids.flatMap fun messageID => s.parts.filter fun part => part.messageID = messageID).Perm
        (s.parts.filter fun part => part.messageID ∈ ids) := by
    intro ids hids
    induction ids with
    | nil => simp
    | cons first _ ih =>
      obtain ⟨hfirst, hrest⟩ := nodup_cons.mp hids
      rw [flatMap_cons]
      refine ((ih hrest).append_left _).trans ?_
      refine List.Perm.trans (Perm.of_eq ?_)
        (filter_append_perm (fun part : ToolPart => decide (part.messageID = first)) _)
      rw [List.filter_filter, List.filter_filter]
      refine congrArg₂ (· ++ ·) (filter_congr fun part _ => ?_) (filter_congr fun part _ => ?_)
      · by_cases h : part.messageID = first <;> simp [h]
      · by_cases h : part.messageID = first
        · simp [h, hfirst]
        · simp [h]
  exact hperm _ hnodup

lemma filter_replace {parts : List ToolPart} {current : ToolPart} (part : ToolPart) (hids : (parts.map ToolPart.id).Nodup)
    (hmem : current ∈ parts) (hid : part.id = current.id) {q : ToolPart → Bool} (hcurrent : q current = false) :
    ((parts.map fun p => if p.id = part.id then part else p).filter q).Perm
      (parts.filter q ++ [part].filter q) := by
  obtain ⟨front, back, rfl⟩ := append_of_mem hmem
  rw [map_append, map_cons, nodup_append] at hids
  obtain ⟨-, hback, hfront⟩ := hids
  have hkeep : ∀ rest : List ToolPart, (∀ p ∈ rest, p.id ≠ part.id) →
      rest.map (fun p => if p.id = part.id then part else p) = rest := by
    intro rest hrest
    refine (map_congr_left fun p hp => if_neg (hrest p hp)).trans (List.map_id rest)
  have hfrontIds : ∀ p ∈ front, p.id ≠ part.id := fun p hp h =>
    hfront _ (List.mem_map_of_mem hp) _ mem_cons_self (h.trans hid)
  have hbackIds : ∀ p ∈ back, p.id ≠ part.id := fun p hp h =>
    (nodup_cons.mp hback).1 (List.mem_map.mpr ⟨p, hp, h.trans hid⟩)
  rw [map_append, map_cons, hkeep front hfrontIds, hkeep back hbackIds, if_pos hid.symm, filter_append,
    filter_append, filter_cons (x := current), hcurrent, if_neg Bool.false_ne_true, append_assoc]
  refine Perm.append_left _ ?_
  rw [← singleton_append, filter_append]
  exact perm_append_comm

/-! ## The invariant -/

def PriorState (authority : RevealAuthority) (ws : List WrittenReveal) (callID : String)
    (prior : CapabilityRevealState) : Prop :=
  ∃ earlier f, earlier <+: ws ∧ RevealChain authority earlier f prior ∧ callID ∉ f.callIDs

variable {ws : List WrittenReveal} {prior : CapabilityRevealState}

lemma PriorState.append {callID : String} (h : PriorState authority ws callID prior) (w : WrittenReveal) :
    PriorState authority (ws ++ [w]) callID prior := by
  obtain ⟨earlier, f, hprefix, hrest⟩ := h
  exact ⟨earlier, f, hprefix.trans (prefix_append _ _), hrest⟩

def PhaseInv (authority : RevealAuthority) (ws : List WrittenReveal) : RevealPhase → Prop
  | .read params callID prior => params.Valid ∧ PriorState authority ws callID prior
  | .prepared reveal => reveal.Sound authority ∧ PriorState authority ws reveal.callID reveal.prior
  | .committed reveal => reveal.Sound authority
  | _ => True

variable {phase : RevealPhase}

lemma PhaseInv.append (h : PhaseInv authority ws phase) (w : WrittenReveal) :
    PhaseInv authority (ws ++ [w]) phase := by
  cases phase with
  | read => exact ⟨h.1, h.2.append w⟩
  | prepared => exact ⟨h.1, h.2.append w⟩
  | committed => exact h
  | _ => trivial

def RevealPhase.committed? : RevealPhase → Option PreparedReveal
  | .committed reveal => some reveal
  | _ => none

structure RevealInv (authority : RevealAuthority) (s : RevealSession) : Prop where
  messageIDs : (s.messages.map OccurrenceMessage.id).Nodup
  partIDs : (s.parts.map ToolPart.id).Nodup
  partMessages : ∀ part ∈ s.parts, part.messageID ∈ s.messages.map OccurrenceMessage.id
  chained : ∃ f st, RevealChain authority s.written f st
  stored : (s.parts.filter (s.StoresReveal authority.occurrenceID)).Perm (s.written.map WrittenReveal.part)
  entries : ∀ w ∈ s.written, receiptEntry w.part = .ok (some w.entry)
  calls : ∀ c ∈ s.calls, PhaseInv authority s.written c.phase
  committed : (s.calls.filterMap fun c => c.phase.committed?).Perm (s.written.map WrittenReveal.reveal)

lemma RevealInv.fold_eq (h : RevealInv authority s) {f : RevealFold} {st : CapabilityRevealState}
    (hchain : RevealChain authority s.written f st) {parts : List ToolPart}
    (hparts : parts.Perm (s.transactionParts authority.occurrenceID)) :
    foldCapabilityRevealReceipts authority parts = .ok st := by
  refine hchain.fold_eq ?_ h.entries
  refine (hparts.filter _).trans ?_
  rw [transactionParts_filter]
  exact h.stored

variable {part : ToolPart}

lemma RevealInv.mem_written (h : RevealInv authority s) (hmem : part ∈ s.parts)
    (hmessage : part.messageID ∈ s.occurrenceAssistantMessageIDs authority.occurrenceID)
    (hsearch : part.search?.isSome = true) : ∃ w ∈ s.written, w.part = part := by
  have hfilter : part ∈ s.parts.filter (s.StoresReveal authority.occurrenceID) := by
    refine mem_filter.mpr ⟨hmem, ?_⟩
    rw [RevealSession.StoresReveal, decide_eq_true hmessage, hsearch, Bool.and_self]
  exact List.mem_map.mp (h.stored.subset hfilter)

/-! ## Steps -/

variable {c : RevealCall}

lemma withPhase_calls {call : ℕ} (hc : s.calls[call]? = some c) (phase : RevealPhase) :
    (s.withPhase call phase).calls = s.calls.set call { c with phase := phase } := by
  refine ext_getElem? fun i => ?_
  rw [withPhase, getElem?_modify, getElem?_set]
  by_cases hi : call = i
  · subst hi
    rw [hc, if_pos rfl, if_pos (List.getElem?_eq_some_iff.mp hc).1]
    simp
  · rw [if_neg hi]
    simp [hi]

variable {context : RevealContext}

lemma beginReveal_phase (h : RevealInv authority s) {arguments : SearchArguments}
    {catalog : Except RevealError Unit} (hbegin : beginReveal authority s context arguments catalog = .ok phase) :
    PhaseInv authority s.written phase ∧ phase.committed? = none := by
  obtain ⟨f, st, hchain⟩ := h.chained
  have hfold := h.fold_eq hchain (occurrenceParts_perm h.messageIDs authority.occurrenceID)
  unfold beginReveal at hbegin
  obtain ⟨_, hparams, hbegin⟩ := bind_eq_ok.mp hbegin
  have hvalid := CapabilitySearchInput.valid_of_parse (getOrThrow_eq_ok.mp hparams)
  replace hbegin := of_throwWhen hbegin
  replace hbegin := of_check hbegin
  replace hbegin := of_throwWhen hbegin
  obtain ⟨prior, hprior, hbegin⟩ := bind_eq_ok.mp hbegin
  obtain rfl : st = prior := Except.ok.inj (hfold.symm.trans hprior)
  replace hbegin := of_throwWhen hbegin
  cases hhead : ((s.capabilityRevealOccurrenceParts authority.occurrenceID).filter fun part =>
      part.search?.isSome && part.callID = trim (context.callID.getD "")).head? with
  | none =>
    rw [hhead] at hbegin
    rw [pure_eq_ok] at hbegin
    subst hbegin
    refine ⟨⟨hvalid, s.written, f, prefix_rfl, hchain, fun hmem => ?_⟩, rfl⟩
    obtain ⟨w, hw, hid⟩ := hchain.mem_callIDs.mp hmem
    -- The part of a reveal of this call would have been found.
    have hfilter := h.stored.symm.subset (List.mem_map_of_mem hw)
    obtain ⟨hpart, hstores⟩ := mem_filter.mp hfilter
    obtain ⟨hmessage, hsearch⟩ := Bool.and_eq_true_iff.mp hstores
    have hfound : w.part ∈ s.capabilityRevealOccurrenceParts authority.occurrenceID :=
      (occurrenceParts_perm h.messageIDs authority.occurrenceID).symm.subset
        (mem_filter.mpr ⟨hpart, hmessage⟩)
    rw [head?_eq_none_iff, filter_eq_nil_iff] at hhead
    exact hhead w.part hfound (by rw [hsearch, decide_eq_true hid, Bool.and_self])
  | some priorCall =>
    rw [hhead] at hbegin
    unfold replayReveal at hbegin
    replace hbegin := of_throwWhen hbegin
    cases hstate : priorCall.state with
    | completed =>
      rw [hstate] at hbegin
      obtain rfl := pure_eq_ok.mp hbegin
      exact ⟨trivial, rfl⟩
    | _ =>
      rw [hstate] at hbegin
      cases hbegin

variable {params : CapabilitySearchInput}

lemma preparation_phase {callID : String} (answers : RevealAnswers)
    (h : PhaseInv authority ws (.read params callID prior)) :
    PhaseInv authority ws (RevealSession.preparation authority params callID prior answers) ∧
      (RevealSession.preparation authority params callID prior answers).committed? = none := by
  unfold preparation
  cases hprepare : prepareReveal authority params callID prior answers with
  | error => exact ⟨trivial, rfl⟩
  | ok =>
    obtain ⟨hsound, hcallID, hprior⟩ := sound_of_prepareReveal h.1 hprepare
    refine ⟨⟨hsound, ?_⟩, rfl⟩
    rw [hcallID, hprior]
    exact h.2

lemma commitReveal_eq_ok {reveal : PreparedReveal} (h : commitReveal authority s context reveal = .ok part) :
    ∃ current currentState, current ∈ s.parts ∧ current.isRunning = true ∧ current.tool = "capability_search" ∧
      current.callID = reveal.callID ∧ current.input.search? = some reveal.params.arguments ∧
      current.messageID ∈ s.occurrenceAssistantMessageIDs authority.occurrenceID ∧
      foldCapabilityRevealReceipts authority (s.transactionParts authority.occurrenceID) = .ok currentState ∧
      currentState.revision = reveal.prior.revision ∧
      part = { current with state := .completed "Capability search" reveal.output reveal.metadata } := by
  unfold commitReveal at h
  obtain ⟨hmessage, h⟩ := throwWhen_bind_eq_ok.mp h
  replace h := of_throwWhen h
  obtain ⟨current, hcurrent, h⟩ := bind_eq_ok.mp h
  obtain ⟨hrunning, h⟩ := throwWhen_bind_eq_ok.mp h
  replace h := of_throwWhen h
  replace h := of_throwWhen h
  obtain ⟨currentState, hfold, h⟩ := bind_eq_ok.mp h
  obtain ⟨hrevision, h⟩ := throwWhen_bind_eq_ok.mp h
  obtain ⟨_, h⟩ := of_bind h
  replace h := of_throwWhen h
  obtain ⟨hinput, h⟩ := throwWhen_bind_eq_ok.mp h
  have hfind := getOrThrow_eq_ok.mp hcurrent
  have hmatch := find?_some hfind
  rw [Bool.and_eq_true_iff] at hmatch
  obtain ⟨htool, hrest⟩ := not_or.mp hrunning
  obtain ⟨hcall, hrun⟩ := not_or.mp hrest
  have hmessageID : current.messageID = context.messageID := of_decide_eq_true hmatch.2
  exact ⟨current, currentState, mem_of_find?_eq_some hfind, Bool.eq_true_of_not_eq_false hrun, not_not.mp htool,
    not_not.mp hcall, not_not.mp hinput, hmessageID ▸ not_not.mp hmessage, hfold, not_not.mp hrevision,
    (pure_eq_ok.mp h).symm⟩

lemma RevealInv.withPhase (h : RevealInv authority s) {call : ℕ} (hc : s.calls[call]? = some c)
    (hphase : PhaseInv authority s.written phase) (hold : c.phase.committed? = none)
    (hnew : phase.committed? = none) : RevealInv authority (s.withPhase call phase) where
  messageIDs := h.messageIDs
  partIDs := h.partIDs
  partMessages := h.partMessages
  chained := h.chained
  stored := h.stored
  entries := h.entries
  calls := by
    intro c' hc'
    rw [withPhase_calls hc phase] at hc'
    rcases mem_or_eq_of_mem_set hc' with hmem | rfl
    · exact h.calls c' hmem
    · exact hphase
  committed := by
    rw [withPhase_calls hc phase, ListUpdate.filterMap_set_eq hc (hnew.trans hold.symm)]
    exact h.committed

lemma withPart_ids (s : RevealSession) (part : ToolPart) :
    (s.withPart part).parts.map ToolPart.id = s.parts.map ToolPart.id := by
  rw [withPart, List.map_map]
  refine map_congr_left fun p _ => ?_
  by_cases hp : p.id = part.id
  · rw [Function.comp_apply, if_pos hp, hp]
  · rw [Function.comp_apply, if_neg hp]

section

variable (h : RevealInv authority s)

include h

lemma RevealInv.settle {current : ToolPart} (hmem : current ∈ s.parts) {state : ToolState}
    (hsettles : s.Settles authority current state) :
    RevealInv authority (s.withPart { current with state := state }) := by
  obtain ⟨_, hother⟩ := hsettles
  have hcurrent : s.StoresReveal authority.occurrenceID current = false := by
    have hnone : current.search?.isSome = false := by
      cases hstate : current.state <;> simp_all [isOpen, search?]
    rw [RevealSession.StoresReveal, hnone, Bool.and_false]
  have hnew : s.StoresReveal authority.occurrenceID { current with state := state } = false := by
    rw [RevealSession.StoresReveal]
    by_cases hsearch : (search? { current with state := state }).isSome = true
    · rw [decide_eq_false (hother hsearch), Bool.false_and]
    · rw [Bool.not_eq_true] at hsearch
      rw [hsearch, Bool.and_false]
  refine { h with partIDs := ?_, partMessages := ?_, stored := ?_ }
  · rw [withPart_ids]
    exact h.partIDs
  · intro part hpart
    obtain ⟨p, hp, rfl⟩ := List.mem_map.mp hpart
    split_ifs with hid
    · exact h.partMessages current hmem
    · exact h.partMessages p hp
  · have hfilter : ((s.withPart { current with state := state }).parts.filter
        (s.StoresReveal authority.occurrenceID)).Perm (s.parts.filter (s.StoresReveal authority.occurrenceID) ++
          [({ current with state := state } : ToolPart)].filter (s.StoresReveal authority.occurrenceID)) :=
      filter_replace { current with state := state } h.partIDs hmem rfl hcurrent
    refine hfilter.trans ?_
    have hlast : [({ current with state := state } : ToolPart)].filter (s.StoresReveal authority.occurrenceID) = [] := by
      rw [filter_cons, hnew]
      rfl
    rw [hlast, List.append_nil]
    exact h.stored

lemma RevealInv.commit {call : ℕ} {reveal : PreparedReveal} (hc : s.calls[call]? = some c)
    (hphase : c.phase = .prepared reveal) (hcommit : commitReveal authority s context reveal = .ok part) :
    RevealInv authority { (s.withPart part).withPhase call (.committed reveal) with
      written := s.written ++ [⟨part, reveal⟩] } := by
  obtain ⟨current, currentState, hmem, _, htool, hcall, hinput, hmessage, hfold, hrevision, rfl⟩ :=
    commitReveal_eq_ok hcommit
  obtain ⟨_, st, hchain⟩ := h.chained
  obtain rfl : st = currentState := Except.ok.inj ((h.fold_eq hchain (List.Perm.refl _)).symm.trans hfold)
  have hprepared := h.calls c (mem_of_getElem? hc)
  rw [hphase] at hprepared
  obtain ⟨hsound, _, _, hprefix, hprior, hnew⟩ := hprepared
  obtain ⟨rfl, hst⟩ := hchain.eq_of_prefix hprior hprefix hrevision
  -- The fold accepts the new receipt after those that are there.
  set part : ToolPart := { current with state := .completed "Capability search" reveal.output reveal.metadata }
    with hpart
  have hfinish := hchain.finish_eq
  rw [← hst] at hfinish
  obtain ⟨f', hstep, hstate⟩ := foldReceipt_of_sound (w := ⟨part, reveal⟩) hsound hcall hinput hfinish hnew
  have hvalid : reveal.receipt.Valid := by
    obtain ⟨_, _, _, hcreate⟩ := hsound.receipt
    exact (createCapabilityRevealReceipt_eq_ok hcreate).1
  have hsearch : part.search? = some reveal.metadata := by
    simp [hpart, search?, htool]
  have hentry : receiptEntry part = .ok (some ⟨part, reveal.receipt⟩) := by
    unfold receiptEntry
    rw [hsearch]
    refine bind_eq_ok.mpr ⟨reveal.receipt, getOrThrow_eq_ok.mpr rfl, bind_eq_ok.mpr ⟨reveal.receipt, ?_, rfl⟩⟩
    exact mapError_eq_ok.mpr (CapabilityRevealReceiptV2.parse_eq_ok.mpr ⟨hvalid, rfl⟩)
  have hcurrent : s.StoresReveal authority.occurrenceID current = false := by
    have hnone : current.search?.isSome = false := by
      cases hstate : current.state <;> simp_all [isRunning, search?]
    rw [RevealSession.StoresReveal, hnone, Bool.and_false]
  have hstores : s.StoresReveal authority.occurrenceID part = true := by
    have hmessage' : part.messageID ∈ s.occurrenceAssistantMessageIDs authority.occurrenceID := hmessage
    rw [RevealSession.StoresReveal, hsearch, decide_eq_true hmessage']
    rfl
  have hcalls : ((s.withPart part).withPhase call (.committed reveal)).calls =
      s.calls.set call { c with phase := .committed reveal } := withPhase_calls hc _
  exact {
    messageIDs := h.messageIDs
    partIDs := (withPart_ids s part).symm ▸ h.partIDs
    partMessages := by
      intro p hp
      obtain ⟨q, hq, rfl⟩ := List.mem_map.mp hp
      split_ifs with hid
      · exact h.partMessages current hmem
      · exact h.partMessages q hq
    chained := ⟨f', reveal.state, hchain.snoc (w := ⟨part, reveal⟩) hstep hstate⟩
    stored := by
      have hfilter : ((s.withPart part).parts.filter (s.StoresReveal authority.occurrenceID)).Perm
          (s.parts.filter (s.StoresReveal authority.occurrenceID) ++
            [part].filter (s.StoresReveal authority.occurrenceID)) :=
        filter_replace part h.partIDs hmem rfl hcurrent
      refine hfilter.trans ?_
      rw [filter_singleton, hstores, map_append]
      exact h.stored.append_right _
    entries := by
      intro w hw
      rcases mem_append.mp hw with hw | hw
      · exact h.entries w hw
      · rw [mem_singleton.mp hw]
        exact hentry
    calls := by
      intro c' hc'
      change c' ∈ ((s.withPart part).withPhase call (.committed reveal)).calls at hc'
      rw [hcalls] at hc'
      rcases mem_or_eq_of_mem_set hc' with hmem' | rfl
      · exact (h.calls c' hmem').append _
      · exact hsound
    committed := by
      change (((s.withPart part).withPhase call (.committed reveal)).calls.filterMap
        fun c => c.phase.committed?).Perm _
      rw [hcalls]
      obtain ⟨_, _, hxs, hset⟩ := ListUpdate.exists_set_split hc
      have hcommitted := h.committed
      rw [hxs, filterMap_append, filterMap_cons, hphase] at hcommitted
      rw [hset, filterMap_append, filterMap_cons, map_append]
      exact perm_middle.trans ((perm_append_singleton _ _).symm.trans
        (hcommitted.append_right [reveal])) }

lemma RevealInv.message {row : OccurrenceMessage} (hrow : row.id ∉ s.messages.map OccurrenceMessage.id) :
    RevealInv authority { s with messages := s.messages ++ [row] } := by
  refine { h with messageIDs := ?_, partMessages := ?_, stored := ?_ }
  · rw [map_append, map_singleton]
    exact nodup_append_comm.mp (nodup_cons.mpr ⟨hrow, h.messageIDs⟩)
  · intro part hpart
    rw [map_append]
    exact mem_append_left _ (h.partMessages part hpart)
  · refine (Perm.of_eq (filter_congr fun part hpart => ?_)).trans h.stored
    have hne : part.messageID ≠ row.id := fun he => hrow (he ▸ h.partMessages part hpart)
    refine congrArg (· && part.search?.isSome) (decide_eq_decide.mpr ?_)
    unfold occurrenceAssistantMessageIDs
    rw [filter_append, map_append, mem_append]
    refine or_iff_left fun hmem => ?_
    obtain ⟨_, hm, hid⟩ := List.mem_map.mp hmem
    rw [mem_singleton.mp (mem_of_mem_filter hm)] at hid
    exact hne hid.symm

lemma RevealInv.request (hid : part.id ∉ s.parts.map ToolPart.id)
    (hmessage : part.messageID ∈ s.messages.map OccurrenceMessage.id) (hopen : part.isOpen = true) :
    RevealInv authority { s with parts := s.parts ++ [part] } := by
  refine { h with partIDs := ?_, partMessages := ?_, stored := ?_ }
  · rw [map_append, map_singleton]
    exact nodup_append_comm.mp (nodup_cons.mpr ⟨hid, h.partIDs⟩)
  · intro p hp
    rcases mem_append.mp hp with hp | hp
    · exact h.partMessages p hp
    · exact mem_singleton.mp hp ▸ hmessage
  · have hnone : part.search?.isSome = false := by
      cases hstate : part.state <;> simp_all [isOpen, search?]
    have hstores : s.StoresReveal authority.occurrenceID part = false := by
      rw [RevealSession.StoresReveal, hnone, Bool.and_false]
    have hfilter : ((s.parts ++ [part]).filter (s.StoresReveal authority.occurrenceID)) =
        s.parts.filter (s.StoresReveal authority.occurrenceID) := by
      rw [filter_append, filter_singleton, hstores]
      exact List.append_nil _
    exact (Perm.of_eq hfilter).trans h.stored

lemma RevealInv.crash :
    RevealInv authority { s with calls := s.calls.map fun c => { c with phase := c.phase.afterCrash } } := by
  refine { h with calls := ?_, committed := ?_ }
  · intro c' hc'
    obtain ⟨c, hc, rfl⟩ := List.mem_map.mp hc'
    have hphase := h.calls c hc
    cases hp : c.phase with
    | committed =>
      rw [hp] at hphase
      exact hphase
    | _ => trivial
  · rw [filterMap_map]
    refine (Perm.of_eq (filterMap_congr fun c _ => ?_)).trans h.committed
    cases hp : c.phase <;> simp [RevealPhase.afterCrash, RevealPhase.committed?, hp]

lemma RevealInv.call (hphase : PhaseInv authority s.written phase) (hnone : phase.committed? = none) :
    RevealInv authority { s with calls := s.calls ++ [⟨context, phase⟩] } := by
  refine { h with calls := ?_, committed := ?_ }
  · intro c hc
    rcases mem_append.mp hc with hc | hc
    · exact h.calls c hc
    · rw [mem_singleton.mp hc]
      exact hphase
  · rw [filterMap_append, filterMap_cons, hnone]
    exact (Perm.of_eq (List.append_nil _)).trans h.committed

end

variable (authority) in
theorem preserves_revealInv : Preserves (revealStep authority) (RevealInv authority) := by
  intro s action s' h hstep
  cases action with
  | message =>
    rw [revealStep] at hstep
    split_ifs at hstep with hrow
    exact some.inj hstep ▸ h.message hrow
  | request =>
    rw [revealStep] at hstep
    split_ifs at hstep with hpart
    exact some.inj hstep ▸ h.request hpart.1 hpart.2.1 hpart.2.2
  | settle =>
    obtain ⟨_, hpart, hstep⟩ := bind_eq_some_iff.mp hstep
    split_ifs at hstep with hsettles
    exact some.inj hstep ▸ h.settle (mem_of_find?_eq_some hpart) hsettles
  | call context arguments catalog =>
    obtain rfl := some.inj hstep
    unfold begun
    cases hbegin : beginReveal authority s context arguments catalog with
    | error => exact h.call trivial rfl
    | ok =>
      obtain ⟨hphase, hnone⟩ := beginReveal_phase h hbegin
      exact h.call hphase hnone
  | prepare _ answers =>
    obtain ⟨c, hc, hstep⟩ := bind_eq_some_iff.mp hstep
    have hphase := h.calls c (mem_of_getElem? hc)
    cases hp : c.phase with
    | read =>
      rw [hp] at hstep hphase
      obtain ⟨hnew, hnone⟩ := preparation_phase answers hphase
      exact some.inj hstep ▸ h.withPhase hc hnew (by rw [hp]; rfl) hnone
    | _ =>
      rw [hp] at hstep
      cases hstep
  | commit =>
    obtain ⟨c, hc, hstep⟩ := bind_eq_some_iff.mp hstep
    cases hp : c.phase with
    | prepared reveal =>
      rw [hp] at hstep
      obtain rfl := some.inj hstep
      unfold committing
      cases hcommit : commitReveal authority s c.context reveal with
      | error => exact h.withPhase hc trivial (by rw [hp]; rfl) rfl
      | ok => exact h.commit hc hp hcommit
    | _ =>
      rw [hp] at hstep
      cases hstep
  | crash => exact some.inj hstep ▸ h.crash

/-! ## The law -/

def initialState (authority : RevealAuthority) : CapabilityRevealState where
  revision := 0
  active := .empty
  definitions := []
  payloadChars := authority.baseDefinition.payloadChars
  payloadTokens := authority.baseDefinition.payloadTokens
  definitionDigest := Util.canonicalDigest "active-provider-tool-definitions-v2" <| Json.fields
    [("base_definition_digest", .text authority.baseDefinition.definitionDigest), ("leaves", .arr [])]
  baseDefinition := authority.baseDefinition
  receipts := []

def RevealSession.latest (authority : RevealAuthority) (s : RevealSession) : CapabilityRevealState :=
  (s.written.getLast?.map fun w => w.reveal.state).getD (initialState authority)

def RevealSession.initial (binding : Option CatalogBinding) : RevealSession where
  messages := []
  binding
  parts := []
  calls := []
  written := []

lemma finishFold_initial (hbase : authority.baseDefinition.Valid) :
    finishFold authority .initial [] = .ok (initialState authority) := by
  have hactive : activeDefinitionState .empty authority.baseDefinition = .ok
      ⟨[], authority.baseDefinition.payloadChars, authority.baseDefinition.payloadTokens,
        (initialState authority).definitionDigest⟩ := by
    unfold activeDefinitionState
    rw [parseBaseDefinition_eq_ok.mpr ⟨hbase, rfl⟩]
    rfl
  refine finishFold_eq_ok.mpr ⟨_, hactive, ?_, ?_, hbase, rfl⟩
  · exact (Nat.sub_self _).trans_le (Nat.zero_le _)
  · exact (Nat.sub_self _).trans_le (Nat.zero_le _)

lemma revealInv_initial (hbase : authority.baseDefinition.Valid) (binding : Option CatalogBinding) :
    RevealInv authority (RevealSession.initial binding) where
  messageIDs := nodup_nil
  partIDs := nodup_nil
  partMessages := fun _ h => absurd h not_mem_nil
  chained := ⟨_, _, .nil (finishFold_initial hbase)⟩
  stored := List.Perm.refl _
  entries := fun _ h => absurd h not_mem_nil
  calls := fun _ h => absurd h not_mem_nil
  committed := List.Perm.refl _

lemma RevealInv.chain_latest (h : RevealInv authority s) (hbase : authority.baseDefinition.Valid) :
    ∃ f, RevealChain authority s.written f (s.latest authority) := by
  obtain ⟨f, st, hchain⟩ := h.chained
  have hst : st = s.latest authority := by
    unfold latest
    generalize s.written = ws at hchain
    cases hchain with
    | nil hfinish => exact Except.ok.inj (hfinish.symm.trans (finishFold_initial hbase))
    | snoc =>
      rw [getLast?_append]
      rfl
  exact ⟨f, hst ▸ hchain⟩

lemma RevealInv.callID_ne (h : RevealInv authority s) {w : WrittenReveal} (hw : w ∈ s.written) :
    w.part.callID ≠ "" := by
  obtain ⟨f, st, hchain⟩ := h.chained
  have hcall : ∀ ws f st, RevealChain authority ws f st → ∀ w ∈ ws,
      w.reveal.receipt.search_call_id = w.part.callID := by
    intro ws f st hchain
    induction hchain with
    | nil => exact fun _ h => absurd h not_mem_nil
    | snoc _ hstep _ ih =>
      intro v hv
      rcases mem_append.mp hv with hv | hv
      · exact ih v hv
      · rw [mem_singleton.mp hv]
        exact (foldReceipt_eq_ok hstep).1
  have hsound : w.reveal.Sound authority := by
    have hmem := h.committed.symm.subset (List.mem_map_of_mem hw)
    obtain ⟨c, hc, hreveal⟩ := mem_filterMap.mp hmem
    have hphase := h.calls c hc
    cases hp : c.phase with
    | committed =>
      rw [hp] at hphase hreveal
      exact some.inj hreveal ▸ hphase
    | _ =>
      rw [hp] at hreveal
      cases hreveal
  obtain ⟨_, _, _, hcreate⟩ := hsound.receipt
  rw [← hcall _ _ _ hchain w hw]
  exact (createCapabilityRevealReceipt_eq_ok hcreate).1.1.2.1

lemma beginReveal_of_completed (h : RevealInv authority s) {arguments : SearchArguments} {title output : String}
    {metadata : ToolMetadata} (hpart : part ∈ s.transactionParts authority.occurrenceID)
    (htool : part.tool = "capability_search") (hstate : part.state = .completed title output metadata)
    (hcontext : context.messageID ∈ s.occurrenceAssistantMessageIDs authority.occurrenceID)
    (hid : context.toolPartID = part.id) (hcallID : trim (context.callID.getD "") = part.callID)
    (hparams : CapabilitySearchInput.parse arguments = some params)
    (hinput : canonicalJSONValue part.input.json = canonicalJSONValue params.arguments.json) :
    beginReveal authority s context arguments (.ok ()) = .ok (.replayed title output metadata) := by
  obtain ⟨_, st, hchain⟩ := h.chained
  have hperm := occurrenceParts_perm h.messageIDs authority.occurrenceID
  obtain ⟨hmem, hmessage⟩ := mem_filter.mp hpart
  have hsearch : part.search? = some metadata := by
    unfold search?
    rw [hstate]
    exact if_pos htool
  obtain ⟨w, hw, hwpart⟩ := h.mem_written hmem (of_decide_eq_true hmessage) (by rw [hsearch]; rfl)
  have hne : trim (context.callID.getD "") ≠ "" := by
    rw [hcallID, ← hwpart]
    exact h.callID_ne hw
  -- No other part is a completed search of the call.
  have honly : ((s.capabilityRevealOccurrenceParts authority.occurrenceID).filter fun p =>
      p.search?.isSome && p.callID = trim (context.callID.getD "")) = [part] := by
    set found := (s.capabilityRevealOccurrenceParts authority.occurrenceID).filter fun p =>
      p.search?.isSome && p.callID = trim (context.callID.getD "") with hfound
    have hall : ∀ p ∈ found, p = part := by
      intro p hp
      obtain ⟨hp, hcond⟩ := mem_filter.mp hp
      obtain ⟨hpsearch, hpcall⟩ := Bool.and_eq_true_iff.mp hcond
      obtain ⟨hpmem, hpmessage⟩ := mem_filter.mp (hperm.subset hp)
      obtain ⟨v, hv, hvpart⟩ := h.mem_written hpmem (of_decide_eq_true hpmessage) hpsearch
      have hcalls : v.part.callID = w.part.callID := by
        rw [hvpart, hwpart, of_decide_eq_true hpcall, hcallID]
      rw [← hvpart, ← hwpart, inj_on_of_nodup_map hchain.nodup_callIDs hv hw hcalls]
    have hnodup : found.Nodup :=
      ((hperm.nodup_iff).mpr ((Nodup.of_map _ h.partIDs).sublist filter_sublist)).sublist filter_sublist
    have hin : part ∈ found := by
      refine mem_filter.mpr ⟨hperm.symm.subset hpart, ?_⟩
      rw [hsearch, hcallID, decide_eq_true rfl]
      rfl
    have hreplicate : found = List.replicate found.length part := eq_replicate_of_mem hall
    have hlength : found.length ≤ 1 := by
      rw [hreplicate] at hnodup
      exact nodup_replicate.mp hnodup
    have hpos : 0 < found.length := length_pos_of_mem hin
    rw [hreplicate, show found.length = 1 by omega]
    rfl
  unfold beginReveal
  refine bind_eq_ok.mpr ⟨params, getOrThrow_eq_ok.mpr hparams, ?_⟩
  refine throwWhen_bind_eq_ok.mpr ⟨hne, check_bind_eq_ok.mpr ⟨rfl, ?_⟩⟩
  refine throwWhen_bind_eq_ok.mpr ⟨not_not.mpr hcontext, bind_eq_ok.mpr ⟨st, h.fold_eq hchain hperm, ?_⟩⟩
  rw [honly]
  refine throwWhen_bind_eq_ok.mpr ⟨Nat.lt_irrefl 1, ?_⟩
  rw [head?_cons]
  unfold replayReveal
  refine throwWhen_bind_eq_ok.mpr ⟨not_or.mpr ⟨not_not.mpr hid.symm, not_not.mpr hinput⟩, ?_⟩
  rw [hstate]
  rfl

lemma ended_of_step {action : RevealAction} {i : ℕ} (hc : s.calls[i]? = some c)
    (hended : c.phase.afterCrash = c.phase) (hstep : revealStep authority s action = some s') :
    s'.calls[i]? = some c := by
  -- A call that moves on is another one, since it had not ended.
  have hother : ∀ {call : ℕ} {c' : RevealCall}, s.calls[call]? = some c' → c'.phase.afterCrash ≠ c'.phase →
      ∀ phase, (s.withPhase call phase).calls[i]? = some c := by
    intro call c' hc' hne phase
    have hi : call ≠ i := by
      rintro rfl
      rw [hc, some.injEq] at hc'
      exact hne (hc' ▸ hended)
    rw [withPhase_calls hc' phase, getElem?_set_ne hi]
    exact hc
  cases action with
  | message | request =>
    rw [revealStep] at hstep
    split_ifs at hstep
    exact some.inj hstep ▸ hc
  | settle =>
    obtain ⟨_, -, hstep⟩ := bind_eq_some_iff.mp hstep
    split_ifs at hstep
    exact some.inj hstep ▸ hc
  | call =>
    obtain rfl := some.inj hstep
    exact getElem?_append_left (List.getElem?_eq_some_iff.mp hc).1 ▸ hc
  | prepare =>
    obtain ⟨c', hc', hstep⟩ := bind_eq_some_iff.mp hstep
    cases hp : c'.phase with
    | read =>
      rw [hp] at hstep
      have hne : c'.phase.afterCrash ≠ c'.phase := by
        rw [hp]
        exact fun h => by cases h
      exact some.inj hstep ▸ hother hc' hne _
    | _ =>
      rw [hp] at hstep
      cases hstep
  | commit =>
    obtain ⟨c', hc', hstep⟩ := bind_eq_some_iff.mp hstep
    cases hp : c'.phase with
    | prepared reveal =>
      rw [hp] at hstep
      have hne : c'.phase.afterCrash ≠ c'.phase := by
        rw [hp]
        exact fun h => by cases h
      obtain rfl := some.inj hstep
      unfold committing
      cases commitReveal authority s c'.context reveal with
      | error => exact hother hc' hne _
      | ok => exact hother hc' hne (.committed reveal)
    | _ =>
      rw [hp] at hstep
      cases hstep
  | crash =>
    obtain rfl := some.inj hstep
    rw [getElem?_map, hc, map_some, hended]

lemma ended_of_exec {actions : List RevealAction} {i : ℕ} (hc : s.calls[i]? = some c)
    (hended : c.phase.afterCrash = c.phase) (hrun : exec (revealStep authority) s actions = some s') :
    s'.calls[i]? = some c := by
  have hkeeps : Preserves (revealStep authority) fun s => s.calls[i]? = some c := fun _ _ _ hc hstep =>
    ended_of_step hc hended hstep
  exact hkeeps.exec hc hrun

structure Replays (authority : RevealAuthority) (s : RevealSession) (context : RevealContext)
    (arguments : SearchArguments) (part : ToolPart) : Prop where
  stored : part ∈ s.transactionParts authority.occurrenceID
  tool : part.tool = "capability_search"
  message : context.messageID ∈ s.occurrenceAssistantMessageIDs authority.occurrenceID
  partID : context.toolPartID = part.id
  callID : trim (context.callID.getD "") = part.callID
  input : ∃ params, CapabilitySearchInput.parse arguments = some params ∧
    canonicalJSONValue part.input.json = canonicalJSONValue params.arguments.json

/-- The reveals of an occurrence form one chain that every reader folds to the state of the last writer. -/
structure RevealLaw (authority : RevealAuthority) (s : RevealSession) : Prop where
  revisions : s.written.map (·.reveal.receipt.revision) = List.range' 1 s.written.length
  predecessors : s.written.map (·.reveal.receipt.prior_revision) = List.range s.written.length
  /-- The receipts that any reader finds are those that were written. -/
  receipts : ∀ parts : List ToolPart, parts.Perm (s.transactionParts authority.occurrenceID) →
    ∃ entries, persistedRevealReceiptEntries parts = .ok entries ∧
      (entries.map RevealEntry.receipt).Perm (s.written.map (·.reveal.receipt))
  folds : ∀ parts : List ToolPart, parts.Perm (s.transactionParts authority.occurrenceID) →
    foldCapabilityRevealReceipts authority parts = .ok (s.latest authority)
  budgets : (s.latest authority).active.size ≤ capabilityRevealMaxActiveRefs ∧
    (s.latest authority).payloadChars - authority.baseDefinition.payloadChars ≤ capabilityRevealMaxActiveChars ∧
    (s.latest authority).payloadTokens - authority.baseDefinition.payloadTokens ≤ capabilityRevealMaxActiveTokens
  /-- A replayed call answers what its part stores, writes nothing, and never does later. -/
  replays : ∀ context arguments part title output metadata, Replays authority s context arguments part →
    part.state = .completed title output metadata →
    ∃ s', revealStep authority s (.call context arguments (.ok ())) = some s' ∧
      s'.parts = s.parts ∧ s'.written = s.written ∧
      ∀ later s'', exec (revealStep authority) s' later = some s'' →
        s''.calls[s.calls.length]? = some ⟨context, .replayed title output metadata⟩
  /-- Of the calls that were computed on one revision at most one commits. -/
  once : ∀ (i j : ℕ) (c c' : RevealCall) (reveal reveal' : PreparedReveal), s.calls[i]? = some c →
    s.calls[j]? = some c' → c.phase = .committed reveal → c'.phase = .committed reveal' →
    reveal.prior.revision = reveal'.prior.revision → i = j

lemma PreparedReveal.Sound.prior_revision {reveal : PreparedReveal} (h : reveal.Sound authority) :
    reveal.receipt.prior_revision = reveal.prior.revision := by
  obtain ⟨_, _, _, hcreate⟩ := h.receipt
  rw [(createCapabilityRevealReceipt_eq_ok hcreate).2.2.2.2.2]
  rfl

lemma RevealInv.once (h : RevealInv authority s) {i j : ℕ} {c c' : RevealCall} {reveal reveal' : PreparedReveal}
    (hc : s.calls[i]? = some c) (hc' : s.calls[j]? = some c') (hp : c.phase = .committed reveal)
    (hp' : c'.phase = .committed reveal') (hrevision : reveal.prior.revision = reveal'.prior.revision) : i = j := by
  obtain ⟨_, _, hchain⟩ := h.chained
  have hnodup : ((s.calls.filterMap fun c => c.phase.committed?).map (·.receipt.prior_revision)).Nodup := by
    refine ((h.committed.map _).nodup_iff).mpr ?_
    rw [List.map_map]
    have hrange : (s.written.map (·.reveal.receipt.prior_revision)).Nodup := by
      rw [hchain.priorRevisions]
      exact nodup_range
    exact hrange
  have hphase := h.calls c (mem_of_getElem? hc)
  have hphase' := h.calls c' (mem_of_getElem? hc')
  rw [hp] at hphase
  rw [hp'] at hphase'
  have heq : reveal.receipt.prior_revision = reveal'.receipt.prior_revision := by
    rw [hphase.prior_revision, hphase'.prior_revision, hrevision]
  rw [map_filterMap, List.Nodup, pairwise_filterMap, pairwise_iff_getElem] at hnodup
  obtain ⟨hi, rfl⟩ := List.getElem?_eq_some_iff.mp hc
  obtain ⟨hj, rfl⟩ := List.getElem?_eq_some_iff.mp hc'
  have hat : ∀ {c : RevealCall} {r : PreparedReveal}, c.phase = .committed r →
      c.phase.committed?.map (·.receipt.prior_revision) = some r.receipt.prior_revision := by
    intro c r hphase
    rw [hphase]
    rfl
  rcases Nat.lt_trichotomy i j with hlt | heq' | hlt
  · exact absurd heq (hnodup i j hi hj hlt _ (hat hp) _ (hat hp'))
  · exact heq'
  · exact absurd heq.symm (hnodup j i hj hi hlt _ (hat hp') _ (hat hp))

def bareAuthority : RevealAuthority where
  occurrenceID := "input"
  harnessProjectionHash := "harness"
  catalogSnapshotRef := "snapshot"
  catalogSnapshotHash := "catalog"
  baseDefinition := ⟨[], Util.canonicalDigest "capability-reveal-base-provider-tool-definitions-v2" (.arr []), 0, 0⟩

def bareArguments : SearchArguments where
  queries := some ["files"]
  kinds := none
  next_owner_kinds := none
  owner_refs := none
  exact_refs := none
  deactivate_refs := none
  product_pillar := none
  limit := none

def firstCall : List RevealAction :=
  [.message ⟨"assistant", true, some "input"⟩,
    .request ⟨"part", "assistant", "call", "capability_search", .search bareArguments, .running⟩,
    .call ⟨some "call", "assistant", "part"⟩ bareArguments (.ok ())]

end OpenCorvus.Capability
