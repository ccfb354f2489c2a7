import OpenCorvus.Capability.RevealOwner

/-!
# The chain of reveals

The receipt that a call computes is one that the fold accepts in the state that the call had read, and the fold
then reaches the state that the call had computed.  Reveals that are committed one on top of the other form a
chain, and the fold of a chain does not depend on the order in which its parts are supplied.
-/

namespace OpenCorvus.Capability

open EcmaScript Transaction List ActivatedCapability WrittenReveal
lemma canonicalRefs_of_canonical {refs sorted : List CapabilityRef} (h : canonicalRefs refs = .ok sorted) :
    canonicalRefs sorted = .ok sorted := by
  obtain ⟨hnodup, rfl⟩ := canonicalRefs_eq_ok.mp h
  refine canonicalRefs_eq_ok.mpr ⟨?_, (toSorted_idem refs).symm⟩
  exact (((toSorted_perm (compareEncoded id) refs).map _).nodup_iff).mpr hnodup

lemma canonicalActivations_of_canonical {values sorted : List ActivatedCapability}
    (h : canonicalActivations values = .ok sorted) : canonicalActivations sorted = .ok sorted := by
  obtain ⟨hvalid, rfl⟩ := canonicalActivations_eq_ok.mp h
  exact canonicalActivations_eq_ok.mpr ⟨fun a ha => hvalid a (mem_toSorted.mp ha), (toSorted_idem values).symm⟩

lemma fingerprint_canonical {authority : RevealAuthority} {callID : String} {revision chars tokens : ℕ}
    {params : SearchArguments} {results results' active active' : List CapabilityRef}
    {activated activated' : List ActivatedCapability} {digest fingerprint : String}
    (h : capabilityRevealMaterializationFingerprint authority callID revision params results activated active digest
      chars tokens = .ok fingerprint)
    (hresults : canonicalRefs results = .ok results') (hactivated : canonicalActivations activated = .ok activated')
    (hactive : canonicalRefs active = .ok active') :
    capabilityRevealMaterializationFingerprint authority callID revision params results' activated' active' digest
      chars tokens = .ok fingerprint := by
  unfold capabilityRevealMaterializationFingerprint at h ⊢
  rw [hresults, hactivated, hactive] at h
  rw [canonicalRefs_of_canonical hresults, canonicalActivations_of_canonical hactivated,
    canonicalRefs_of_canonical hactive]
  exact h

/-- The receipt before its fields are made canonical. -/
def PreparedReveal.draft (authority : RevealAuthority) (reveal : PreparedReveal) (resultRefs : List CapabilityRef)
    (fingerprint : String) : CapabilityRevealReceiptV2 where
  occurrence_id := authority.occurrenceID
  search_call_id := reveal.callID
  prior_revision := reveal.prior.revision
  revision := reveal.prior.revision + 1
  harness_projection_hash := authority.harnessProjectionHash
  catalog_snapshot_ref := authority.catalogSnapshotRef
  catalog_snapshot_hash := authority.catalogSnapshotHash
  materialization_fingerprint := fingerprint
  result_refs := resultRefs
  deactivate_refs := reveal.params.deactivate_refs
  activated := reveal.activated
  active_refs := reveal.candidate.activeRefs
  active_definition_digest := reveal.candidate.definitionDigest
  active_payload_chars := reveal.candidate.payloadChars
  active_payload_tokens := reveal.candidate.payloadTokens

structure PreparedReveal.Sound (authority : RevealAuthority) (reveal : PreparedReveal) : Prop where
  params : reveal.params.Valid
  requested : reveal.activated.map ActivatedCapability.requested_ref = reveal.params.exact_refs
  reduced : reduceCapabilityRevealCandidate reveal.prior reveal.params.deactivate_refs reveal.activated =
    .ok reveal.candidate
  receipt : ∃ resultRefs fingerprint,
    capabilityRevealMaterializationFingerprint authority reveal.callID reveal.prior.revision reveal.params.arguments
      resultRefs reveal.activated reveal.candidate.activeRefs reveal.candidate.definitionDigest
      reveal.candidate.payloadChars reveal.candidate.payloadTokens = .ok fingerprint ∧
    createCapabilityRevealReceipt (reveal.draft authority resultRefs fingerprint) = .ok reveal.receipt

lemma requested_of_activateRef {answers : RevealAnswers} {ref : CapabilityRef} {a : ActivatedCapability}
    (h : activateRef answers ref = .ok a) : a.requested_ref = ref := by
  unfold activateRef at h
  replace h := of_throwWhen h
  obtain ⟨_, h⟩ := of_bind h
  obtain ⟨_, h⟩ := of_bind h
  replace h := of_throwWhen h
  obtain ⟨_, h⟩ := of_bind h
  replace h := of_throwWhen h
  obtain ⟨-, rfl⟩ := parse_eq_ok.mp h
  rfl

variable {prior : CapabilityRevealState}

lemma sound_of_prepareReveal {authority : RevealAuthority} {params : CapabilitySearchInput} {callID : String}
    {answers : RevealAnswers} {reveal : PreparedReveal} (hparams : params.Valid)
    (h : prepareReveal authority params callID prior answers = .ok reveal) :
    reveal.Sound authority ∧ reveal.callID = callID ∧ reveal.prior = prior := by
  unfold prepareReveal at h
  obtain ⟨_, h⟩ := of_bind h
  obtain ⟨activated, hactivated, h⟩ := bind_eq_ok.mp h
  obtain ⟨_, hcandidate, h⟩ := bind_eq_ok.mp h
  obtain ⟨fingerprint, hfingerprint, h⟩ := bind_eq_ok.mp h
  obtain ⟨_, hreceipt, h⟩ := bind_eq_ok.mp h
  rw [pure_eq_ok] at h
  subst h
  have hrequested : activated.map requested_ref = params.exact_refs := by
    have hmap : ∀ (refs : List CapabilityRef) (as : List ActivatedCapability),
        refs.mapM (activateRef answers) = .ok as → as.map requested_ref = refs := by
      intro refs
      induction refs with
      | nil =>
        intro as h
        rw [mapM_nil, pure_eq_ok] at h
        rw [← h, map_nil]
      | cons _ _ ih =>
        intro as h
        rw [mapM_cons, bind_eq_ok] at h
        obtain ⟨_, ha, h⟩ := h
        obtain ⟨rest, hrest, h⟩ := bind_eq_ok.mp h
        rw [pure_eq_ok] at h
        rw [← h, map_cons, requested_of_activateRef ha, ih rest hrest]
    exact hmap _ _ hactivated
  exact ⟨⟨hparams, hrequested, hcandidate, _, fingerprint, hfingerprint, hreceipt⟩, rfl, rfl⟩

lemma createCapabilityRevealReceipt_eq_ok {draft receipt : CapabilityRevealReceiptV2}
    (h : createCapabilityRevealReceipt draft = .ok receipt) :
    receipt.Valid ∧ canonicalRefs draft.result_refs = .ok receipt.result_refs ∧
      canonicalRefs draft.deactivate_refs = .ok receipt.deactivate_refs ∧
      canonicalActivations draft.activated = .ok receipt.activated ∧
      canonicalRefs draft.active_refs = .ok receipt.active_refs ∧
      receipt = { draft with
        result_refs := receipt.result_refs, deactivate_refs := receipt.deactivate_refs,
        activated := receipt.activated, active_refs := receipt.active_refs } := by
  unfold createCapabilityRevealReceipt at h
  obtain ⟨_, hresults, h⟩ := bind_eq_ok.mp h
  obtain ⟨_, hdeactivate, h⟩ := bind_eq_ok.mp h
  obtain ⟨_, hactivated, h⟩ := bind_eq_ok.mp h
  obtain ⟨_, hactive, h⟩ := bind_eq_ok.mp h
  obtain ⟨hvalid, rfl⟩ := CapabilityRevealReceiptV2.parse_eq_ok.mp h
  exact ⟨hvalid, hresults, hdeactivate, hactivated, hactive, rfl⟩

lemma reduceCapabilityRevealCandidate_eq_ok {deactivateRefs : List CapabilityRef}
    {activated : List ActivatedCapability} {candidate : RevealCandidate}
    (h : reduceCapabilityRevealCandidate prior deactivateRefs activated = .ok candidate) :
    ∃ deactivate sorted definitions, canonicalRefs deactivateRefs = .ok deactivate ∧
      canonicalActivations activated = .ok sorted ∧
      candidate.active = revealActive prior.active deactivate sorted ∧
      candidate.active.size ≤ capabilityRevealMaxActiveRefs ∧
      activeDefinitionState candidate.active prior.baseDefinition = .ok definitions ∧
      definitions.payloadChars - prior.baseDefinition.payloadChars ≤ capabilityRevealMaxActiveChars ∧
      definitions.payloadTokens - prior.baseDefinition.payloadTokens ≤ capabilityRevealMaxActiveTokens ∧
      canonicalRefs (candidate.active.values.map ActivatedCapability.requested_ref) = .ok candidate.activeRefs ∧
      candidate.definitions = definitions.definitions ∧ candidate.payloadChars = definitions.payloadChars ∧
      candidate.payloadTokens = definitions.payloadTokens ∧ candidate.definitionDigest = definitions.digest := by
  unfold reduceCapabilityRevealCandidate at h
  obtain ⟨_, _, h⟩ := bind_eq_ok.mp h
  obtain ⟨deactivate, hdeactivate, h⟩ := bind_eq_ok.mp h
  obtain ⟨sorted, hsorted, h⟩ := bind_eq_ok.mp h
  replace h := of_check h
  obtain ⟨hsize, h⟩ := throwWhen_bind_eq_ok.mp h
  obtain ⟨definitions, hdefinitions, h⟩ := bind_eq_ok.mp h
  obtain ⟨hchars, h⟩ := throwWhen_bind_eq_ok.mp h
  obtain ⟨htokens, h⟩ := throwWhen_bind_eq_ok.mp h
  obtain ⟨_, hactiveRefs, h⟩ := bind_eq_ok.mp h
  rw [pure_eq_ok] at h
  subst h
  exact ⟨deactivate, sorted, definitions, hdeactivate, hsorted, rfl, not_lt.mp hsize, hdefinitions, not_lt.mp hchars,
    not_lt.mp htokens, hactiveRefs, rfl, rfl, rfl, rfl⟩

variable {authority : RevealAuthority} {receipts : List CapabilityRevealReceiptV2} {f : RevealFold}

lemma finishFold_eq_ok {st : CapabilityRevealState} : finishFold authority f receipts = .ok st ↔
      ∃ definitions, activeDefinitionState f.active authority.baseDefinition = .ok definitions ∧
        definitions.payloadChars - authority.baseDefinition.payloadChars ≤ capabilityRevealMaxActiveChars ∧
        definitions.payloadTokens - authority.baseDefinition.payloadTokens ≤ capabilityRevealMaxActiveTokens ∧
        authority.baseDefinition.Valid ∧
        st = {
          revision := f.revision
          active := f.active
          definitions := definitions.definitions
          payloadChars := definitions.payloadChars
          payloadTokens := definitions.payloadTokens
          definitionDigest := definitions.digest
          baseDefinition := authority.baseDefinition
          receipts } := by
  unfold finishFold
  rw [bind_eq_ok]
  refine exists_congr fun definitions => and_congr_right fun _ => ?_
  rw [throwWhen_bind_eq_ok, not_or, not_lt, not_lt, and_assoc]
  refine and_congr_right fun _ => and_congr_right fun _ => ?_
  rw [bind_eq_ok]
  constructor
  · rintro ⟨_, hbase, h⟩
    obtain ⟨hvalid, rfl⟩ := parseBaseDefinition_eq_ok.mp hbase
    exact ⟨hvalid, (pure_eq_ok.mp h).symm⟩
  · rintro ⟨hvalid, rfl⟩
    exact ⟨_, parseBaseDefinition_eq_ok.mpr ⟨hvalid, rfl⟩, rfl⟩

lemma expectedFingerprint_of_sound {w : WrittenReveal} (hsound : w.reveal.Sound authority)
    (hcall : w.part.callID = w.reveal.callID) (hinput : w.part.input.search? = some w.reveal.params.arguments) :
    expectedFingerprint authority w.reveal.prior.revision w.entry =
      .ok w.reveal.receipt.materialization_fingerprint := by
  obtain ⟨_, fingerprint, hfingerprint, hcreate⟩ := hsound.receipt
  obtain ⟨-, hresults, hdeactivate, hactivated, hactive, hreceipt⟩ := createCapabilityRevealReceipt_eq_ok hcreate
  have hexact : (w.reveal.params.exact_refs.map CapabilityRef.encode).Nodup := hsound.params.exact_refs.2.2
  -- The activations of the receipt are those of the arguments, in the order of their encodings.
  have hrefs : w.reveal.receipt.activated.map requested_ref =
      toSorted (compareEncoded id) w.reveal.params.exact_refs := by
    have hdraft : canonicalActivations w.reveal.activated = .ok w.reveal.receipt.activated := hactivated
    have hmap : toSorted (compareEncoded id) (w.reveal.activated.map requested_ref) =
        (toSorted (compareEncoded requested_ref) w.reveal.activated).map
          requested_ref := toSorted_map (fun _ _ => rfl) _
    rw [(canonicalActivations_eq_ok.mp hdraft).2, ← hsound.requested, hmap]
  have hrequested : canonicalRefs w.reveal.params.exact_refs =
      .ok (toSorted (compareEncoded id) w.reveal.params.exact_refs) := canonicalRefs_eq_ok.mpr ⟨hexact, rfl⟩
  have hactivatedRefs : canonicalRefs (w.reveal.receipt.activated.map requested_ref) =
      .ok (toSorted (compareEncoded id) w.reveal.params.exact_refs) := by
    rw [hrefs]
    exact canonicalRefs_of_canonical hrequested
  have htotals : w.reveal.receipt.active_definition_digest = w.reveal.candidate.definitionDigest ∧
      w.reveal.receipt.active_payload_chars = w.reveal.candidate.payloadChars ∧
      w.reveal.receipt.active_payload_tokens = w.reveal.candidate.payloadTokens ∧
      w.reveal.receipt.materialization_fingerprint = fingerprint := by
    rw [hreceipt]
    exact ⟨rfl, rfl, rfl, rfl⟩
  have hcanonical := fingerprint_canonical hfingerprint hresults hactivated hactive
  obtain ⟨hdigest, hchars, htokens, hfp⟩ := htotals
  unfold expectedFingerprint
  refine bind_eq_ok.mpr ⟨_, getOrThrow_eq_ok.mpr hinput, ?_⟩
  refine bind_eq_ok.mpr ⟨_, getOrThrow_eq_ok.mpr (CapabilitySearchInput.parse_arguments hsound.params), ?_⟩
  refine bind_eq_ok.mpr ⟨_, hrequested, bind_eq_ok.mpr ⟨_, hactivatedRefs, ?_⟩⟩
  refine throwWhen_bind_eq_ok.mpr ⟨not_not.mpr rfl, bind_eq_ok.mpr ⟨_, hdeactivate, ?_⟩⟩
  refine throwWhen_bind_eq_ok.mpr ⟨not_not.mpr rfl, ?_⟩
  rw [hfp, ← hcanonical]
  simp only [entry, hcall, hdigest, hchars, htokens]

theorem foldReceipt_of_sound {w : WrittenReveal} (hsound : w.reveal.Sound authority)
    (hcall : w.part.callID = w.reveal.callID) (hinput : w.part.input.search? = some w.reveal.params.arguments)
    (hprior : finishFold authority f receipts = .ok w.reveal.prior) (hnew : w.reveal.callID ∉ f.callIDs) :
    ∃ f', foldReceipt authority f w.entry = .ok f' ∧
      finishFold authority f' (receipts ++ [w.reveal.receipt]) = .ok w.reveal.state := by
  obtain ⟨_, _, _, hcreate⟩ := hsound.receipt
  obtain ⟨-, -, hdeactivate, hactivated, hactive, hreceipt⟩ := createCapabilityRevealReceipt_eq_ok hcreate
  obtain ⟨deactivate, sorted, definitions, hdeactivate', hsorted, hcandidate, hsize, hdefinitions, hchars, htokens,
    hrefs, hdefs, hpayloadChars, hpayloadTokens, hdigest⟩ := reduceCapabilityRevealCandidate_eq_ok hsound.reduced
  obtain ⟨_, -, -, -, hbase, hst⟩ := finishFold_eq_ok.mp hprior
  have hactiveEq : w.reveal.prior.active = f.active := by rw [hst]
  have hrevision : w.reveal.prior.revision = f.revision := by rw [hst]
  have hbaseEq : w.reveal.prior.baseDefinition = authority.baseDefinition := by rw [hst]
  have hreceipts : w.reveal.prior.receipts = receipts := by rw [hst]
  obtain rfl : deactivate = w.reveal.receipt.deactivate_refs := Except.ok.inj (hdeactivate'.symm.trans hdeactivate)
  obtain rfl : sorted = w.reveal.receipt.activated := Except.ok.inj (hsorted.symm.trans hactivated)
  rw [hactiveEq] at hcandidate
  rw [hbaseEq] at hdefinitions hchars htokens
  -- The references of the receipt are those of the candidate, which are canonical.
  have hactiveRefs : w.reveal.receipt.active_refs = w.reveal.candidate.activeRefs :=
    Except.ok.inj (hactive.symm.trans (canonicalRefs_of_canonical hrefs))
  have hexpected : toSorted (compareEncoded id)
      (w.reveal.candidate.active.values.map requested_ref) = w.reveal.receipt.active_refs :=
    (canonicalRefs_eq_ok.mp hrefs).2.symm.trans hactiveRefs.symm
  have hfields : w.reveal.receipt.search_call_id = w.reveal.callID ∧
      w.reveal.receipt.occurrence_id = authority.occurrenceID ∧
      w.reveal.receipt.harness_projection_hash = authority.harnessProjectionHash ∧
      w.reveal.receipt.catalog_snapshot_ref = authority.catalogSnapshotRef ∧
      w.reveal.receipt.catalog_snapshot_hash = authority.catalogSnapshotHash ∧
      w.reveal.receipt.prior_revision = f.revision ∧ w.reveal.receipt.revision = f.revision + 1 ∧
      w.reveal.receipt.active_definition_digest = w.reveal.candidate.definitionDigest ∧
      w.reveal.receipt.active_payload_chars = w.reveal.candidate.payloadChars ∧
      w.reveal.receipt.active_payload_tokens = w.reveal.candidate.payloadTokens := by
    rw [hreceipt, ← hrevision]
    exact ⟨rfl, rfl, rfl, rfl, rfl, rfl, rfl, rfl, rfl, rfl⟩
  obtain ⟨hid, hocc, hharness, href, hhash, hpriorRev, hrev, hdig, hch, htok⟩ := hfields
  have hfingerprint' := expectedFingerprint_of_sound hsound hcall hinput
  rw [hrevision] at hfingerprint'
  refine ⟨⟨w.reveal.receipt.search_call_id :: f.callIDs, w.reveal.candidate.active, w.reveal.receipt.revision⟩, ?_, ?_⟩
  · unfold foldReceipt
    refine throwWhen_bind_eq_ok.mpr ⟨not_not.mpr (hid.trans hcall.symm), ?_⟩
    refine throwWhen_bind_eq_ok.mpr ⟨fun hmem => hnew (hid ▸ hmem), ?_⟩
    refine throwWhen_bind_eq_ok.mpr ⟨?_, ?_⟩
    · simp only [entry, hocc, hharness, href, hhash, ne_eq, not_true_eq_false, or_self, not_false_eq_true]
    refine throwWhen_bind_eq_ok.mpr ⟨?_, ?_⟩
    · simp only [entry, hpriorRev, hrev, ne_eq, not_true_eq_false, or_self, not_false_eq_true]
    have hreveal : revealActive f.active w.entry.receipt.deactivate_refs w.entry.receipt.activated =
        w.reveal.candidate.active := hcandidate.symm
    simp only [hreveal]
    refine throwWhen_bind_eq_ok.mpr ⟨not_lt.mpr hsize, ?_⟩
    refine throwWhen_bind_eq_ok.mpr ⟨not_not.mpr ?_, bind_eq_ok.mpr ⟨definitions, hdefinitions, ?_⟩⟩
    · rw [hexpected]
      rfl
    refine throwWhen_bind_eq_ok.mpr ⟨?_, ?_⟩
    · simp only [entry, hdig, hch, htok, hdigest, hpayloadChars, hpayloadTokens, ne_eq,
        not_true_eq_false, or_self, not_false_eq_true]
    refine bind_eq_ok.mpr ⟨_, mapError_eq_ok.mpr hfingerprint', ?_⟩
    exact throwWhen_bind_eq_ok.mpr ⟨not_not.mpr rfl, rfl⟩
  · refine finishFold_eq_ok.mpr ⟨definitions, hdefinitions, hchars, htokens, hbase, ?_⟩
    rw [PreparedReveal.state, hdefs, hpayloadChars, hpayloadTokens, hdigest, hbaseEq, hreceipts]

variable (authority) in
inductive RevealChain : List WrittenReveal → RevealFold → CapabilityRevealState → Prop
  | nil {st : CapabilityRevealState} (h : finishFold authority .initial [] = .ok st) : RevealChain [] .initial st
  | snoc {ws : List WrittenReveal} {f f' : RevealFold} {st : CapabilityRevealState} {w : WrittenReveal}
      (earlier : RevealChain ws f st) (step : foldReceipt authority f w.entry = .ok f')
      (finish : finishFold authority f' (ws.map (·.reveal.receipt) ++ [w.reveal.receipt]) = .ok w.reveal.state) :
      RevealChain (ws ++ [w]) f' w.reveal.state

lemma foldReceipt_eq_ok {f f' : RevealFold} {entry : RevealEntry} (h : foldReceipt authority f entry = .ok f') :
    entry.receipt.search_call_id = entry.part.callID ∧ entry.receipt.prior_revision = f.revision ∧
      entry.receipt.revision = f.revision + 1 ∧ entry.receipt.search_call_id ∉ f.callIDs ∧
      f'.callIDs = entry.receipt.search_call_id :: f.callIDs ∧ f'.revision = entry.receipt.revision ∧
      f'.active.size ≤ capabilityRevealMaxActiveRefs := by
  unfold foldReceipt at h
  obtain ⟨hcall, h⟩ := throwWhen_bind_eq_ok.mp h
  obtain ⟨hnew, h⟩ := throwWhen_bind_eq_ok.mp h
  replace h := of_throwWhen h
  obtain ⟨hchain, h⟩ := throwWhen_bind_eq_ok.mp h
  obtain ⟨hsize, h⟩ := throwWhen_bind_eq_ok.mp h
  replace h := of_throwWhen h
  obtain ⟨_, h⟩ := of_bind h
  replace h := of_throwWhen h
  obtain ⟨_, h⟩ := of_bind h
  replace h := of_throwWhen h
  rw [pure_eq_ok] at h
  subst h
  obtain ⟨hprior, hrevision⟩ := not_or.mp hchain
  exact ⟨not_not.mp hcall, not_not.mp hprior, not_not.mp hrevision, hnew, rfl, rfl, not_lt.mp hsize⟩

namespace RevealChain

variable {ws : List WrittenReveal} {f : RevealFold} {st : CapabilityRevealState}

section

variable (h : RevealChain authority ws f st)

include h

lemma foldlM_eq : (ws.map WrittenReveal.entry).foldlM (foldReceipt authority) .initial = .ok f := by
  induction h with
  | nil => rfl
  | snoc _ hstep _ ih =>
    rw [map_append, foldlM_append, bind_eq_ok]
    refine ⟨_, ih, ?_⟩
    rw [map_singleton, foldlM_cons, bind_eq_ok]
    exact ⟨_, hstep, rfl⟩

lemma finish_eq : finishFold authority f (ws.map (·.reveal.receipt)) = .ok st := by
  cases h with
  | nil h => exact h
  | snoc _ _ hfinish =>
    rw [map_append]
    exact hfinish

lemma unique {f' : RevealFold} {st' : CapabilityRevealState} (h' : RevealChain authority ws f' st') :
    f = f' ∧ st = st' := by
  obtain rfl : f = f' := Except.ok.inj (h.foldlM_eq.symm.trans h'.foldlM_eq)
  exact ⟨rfl, Except.ok.inj (h.finish_eq.symm.trans h'.finish_eq)⟩

lemma state_eq : st.revision = f.revision ∧ st.active = f.active ∧ st.receipts = ws.map (·.reveal.receipt) := by
  obtain ⟨_, -, -, -, -, rfl⟩ := finishFold_eq_ok.mp h.finish_eq
  exact ⟨rfl, rfl, rfl⟩

lemma revision_eq : f.revision = ws.length := by
  induction h with
  | nil => rfl
  | snoc _ hstep _ ih =>
    obtain ⟨-, -, hrevision, -, -, hf', -⟩ := foldReceipt_eq_ok hstep
    rw [hf', hrevision, ih, length_append, length_singleton]

/-- The revisions are `1, …, n`. -/
lemma revisions : ws.map (·.reveal.receipt.revision) = List.range' 1 ws.length := by
  induction h with
  | nil => rfl
  | snoc earlier hstep _ ih =>
    obtain ⟨-, -, hrevision, -⟩ := foldReceipt_eq_ok hstep
    rw [earlier.revision_eq] at hrevision
    rw [map_append, ih, length_append, length_singleton, range'_concat, map_singleton]
    refine congrArg (fun revision => List.range' 1 _ ++ [revision]) ?_
    exact hrevision.trans (by omega)

lemma priorRevisions : ws.map (·.reveal.receipt.prior_revision) = List.range ws.length := by
  induction h with
  | nil => rfl
  | snoc earlier hstep _ ih =>
    obtain ⟨-, hprior, -⟩ := foldReceipt_eq_ok hstep
    rw [earlier.revision_eq] at hprior
    rw [map_append, ih, length_append, length_singleton, range_succ, map_singleton]
    exact congrArg (fun revision => List.range _ ++ [revision]) hprior

lemma mem_callIDs {callID : String} : callID ∈ f.callIDs ↔ ∃ w ∈ ws, w.part.callID = callID := by
  induction h with
  | nil => exact iff_of_false not_mem_nil fun ⟨_, hw, _⟩ => absurd hw not_mem_nil
  | @snoc _ _ _ _ w _ hstep _ ih =>
    obtain ⟨hcall, -, -, -, hids, -⟩ := foldReceipt_eq_ok hstep
    have hcall' : w.entry.receipt.search_call_id = w.part.callID := hcall
    rw [hids, mem_cons, ih, hcall']
    constructor
    · rintro (rfl | ⟨v, hv, hvid⟩)
      · exact ⟨w, mem_append_right _ mem_cons_self, rfl⟩
      · exact ⟨v, mem_append_left _ hv, hvid⟩
    · rintro ⟨v, hv, hvid⟩
      rcases mem_append.mp hv with hv | hv
      · exact .inr ⟨v, hv, hvid⟩
      · rw [mem_singleton.mp hv] at hvid
        exact .inl hvid.symm

lemma nodup_callIDs : (ws.map (·.part.callID)).Nodup := by
  induction h with
  | nil => exact nodup_nil
  | @snoc _ _ _ _ w earlier hstep _ ih =>
    obtain ⟨hcall, -, -, hnew, -⟩ := foldReceipt_eq_ok hstep
    have hcall' : w.entry.receipt.search_call_id = w.part.callID := hcall
    rw [map_append, map_singleton]
    refine nodup_append_comm.mp (nodup_cons.mpr ⟨fun hmem => hnew ?_, ih⟩)
    obtain ⟨v, hv, hvid⟩ := List.mem_map.mp hmem
    exact hcall'.symm ▸ earlier.mem_callIDs.mpr ⟨v, hv, hvid⟩

lemma budgets : st.active.size ≤ capabilityRevealMaxActiveRefs ∧
      st.payloadChars - authority.baseDefinition.payloadChars ≤ capabilityRevealMaxActiveChars ∧
      st.payloadTokens - authority.baseDefinition.payloadTokens ≤ capabilityRevealMaxActiveTokens := by
  have hsize : f.active.size ≤ capabilityRevealMaxActiveRefs := by
    cases h with
    | nil => exact Nat.zero_le _
    | snoc _ hstep => exact (foldReceipt_eq_ok hstep).2.2.2.2.2.2
  obtain ⟨_, -, hchars, htokens, -, rfl⟩ := finishFold_eq_ok.mp h.finish_eq
  exact ⟨hsize, hchars, htokens⟩

lemma eq_of_prefix {earlier : List WrittenReveal} {f₀ : RevealFold} {st₀ : CapabilityRevealState}
    (h₀ : RevealChain authority earlier f₀ st₀) (hstart : earlier <+: ws) (hrevision : st.revision = st₀.revision) :
    f₀ = f ∧ st₀ = st := by
  have hlength : earlier.length = ws.length := by
    rw [← h₀.revision_eq, ← h.revision_eq, ← h₀.state_eq.1, ← h.state_eq.1, hrevision]
  obtain rfl := hstart.eq_of_length hlength
  exact h₀.unique h

end

end RevealChain

lemma receiptEntry_of_not_search {part : ToolPart} (h : part.search? = none) : receiptEntry part = .ok none := by
  unfold receiptEntry
  rw [h]

lemma persistedRevealReceiptEntries_of_perm {parts : List ToolPart} {ws : List WrittenReveal}
    (hperm : (parts.filter fun part => part.search?.isSome).Perm (ws.map WrittenReveal.part))
    (hentries : ∀ w ∈ ws, receiptEntry w.part = .ok (some w.entry)) :
    ∃ entries, persistedRevealReceiptEntries parts = .ok entries ∧ entries.Perm (ws.map WrittenReveal.entry) := by
  -- What each part contributes.
  have hpart : ∀ part ∈ parts, receiptEntry part = .ok ((receiptEntry part).toOption.join) := by
    intro part hmem
    cases hsearch : part.search? with
    | none =>
      rw [receiptEntry_of_not_search hsearch]
      rfl
    | some =>
      have hfilter : part ∈ parts.filter fun part => part.search?.isSome :=
        mem_filter.mpr ⟨hmem, by rw [hsearch]; rfl⟩
      obtain ⟨w, hw, rfl⟩ := List.mem_map.mp (hperm.subset hfilter)
      rw [hentries w hw]
      rfl
  have hmapM := mapM_eq_ok_map hpart
  refine ⟨_, bind_eq_ok.mpr ⟨_, hmapM, rfl⟩, ?_⟩
  have hreduce : (parts.map fun part => (receiptEntry part).toOption.join).reduceOption =
      (parts.filter fun part => part.search?.isSome).filterMap fun part => (receiptEntry part).toOption.join := by
    change List.filterMap id _ = _
    rw [filterMap_map, filterMap_filter]
    refine filterMap_congr fun part _ => ?_
    cases hsearch : part.search? with
    | none =>
      simp only [Function.comp_apply, receiptEntry_of_not_search hsearch]
      rfl
    | some => rfl
  have hws : (ws.map part).filterMap (fun part => (receiptEntry part).toOption.join) =
      ws.map entry := by
    rw [filterMap_map]
    calc ws.filterMap ((fun part => (receiptEntry part).toOption.join) ∘ part)
        = ws.filterMap fun w => some w.entry :=
          filterMap_congr fun w hw => by simp only [Function.comp_apply, hentries w hw]; rfl
      _ = ws.map entry := congrFun filterMap_eq_map ws
  rw [hreduce, ← hws]
  exact hperm.filterMap _

theorem RevealChain.fold_eq {ws : List WrittenReveal} {st : CapabilityRevealState}
    (h : RevealChain authority ws f st) {parts : List ToolPart}
    (hperm : (parts.filter fun part => part.search?.isSome).Perm (ws.map WrittenReveal.part))
    (hentries : ∀ w ∈ ws, receiptEntry w.part = .ok (some w.entry)) :
    foldCapabilityRevealReceipts authority parts = .ok st := by
  obtain ⟨entries, hpersisted, hentriesPerm⟩ := persistedRevealReceiptEntries_of_perm hperm hentries
  have hrevisions : (ws.map entry).map (·.receipt.revision) = List.range' 1 ws.length := by
    rw [List.map_map]
    exact h.revisions
  have hlt : (ws.map entry).Pairwise fun left right => left.receipt.revision < right.receipt.revision := by
    rw [← pairwise_map (f := fun entry : RevealEntry => entry.receipt.revision), hrevisions]
    exact pairwise_lt_range'
  have hsorted : toSorted compareRevisions entries = ws.map entry := by
    rw [toSorted_eq_of_perm hentriesPerm]
    · exact toSorted_of_pairwise (hlt.imp fun hrev => Nat.isLE_compare.mpr hrev.le)
    · intro x hx y hy hxy
      have hx' := hentriesPerm.subset hx
      have hy' := hentriesPerm.subset hy
      have hrev : x.receipt.revision = y.receipt.revision := Nat.compare_eq_eq.mp hxy
      have hinj := inj_on_of_nodup_map (f := fun entry : RevealEntry => entry.receipt.revision)
        (hrevisions ▸ nodup_range')
      exact hinj hx' hy' hrev
  unfold foldCapabilityRevealReceipts
  refine bind_eq_ok.mpr ⟨entries, hpersisted, ?_⟩
  rw [hsorted]
  refine bind_eq_ok.mpr ⟨f, h.foldlM_eq, ?_⟩
  rw [List.map_map]
  exact h.finish_eq

end OpenCorvus.Capability
