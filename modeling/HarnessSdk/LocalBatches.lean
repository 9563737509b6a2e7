import HarnessSdk.LocalInput
import HarnessSdk.LocalWindow

/-!
# The batches of the input

`_handle_input_audio` collects a number of frames into a batch, and `_flush_input_batch` hands their audio to the session in one
piece. The batch is bounded in frames and the session's limit is in bytes, so a batch of one frame is the only one that always
fits.
-/

namespace HarnessSdk
namespace Local

/-- The checks of `send_audio` on the audio itself. -/
def Sendable (limits : RealtimeLimits) (pcm : Bytes) : Prop :=
  pcm ≠ [] ∧ pcm.length % 2 = 0 ∧ pcm.length ≤ limits.inputAudioEventBytes

/-- The payload of an input frame. -/
structure Whole (payload : Bytes) : Prop where
  filled : payload ≠ []
  samples : payload.length % 2 = 0
  small : payload.length ≤ 65536

theorem flatten_samples {payloads : List Bytes} (h : ∀ p ∈ payloads, Whole p) : payloads.flatten.length % 2 = 0 := by
  induction payloads with
  | nil => rfl
  | cons payload payloads ih =>
    have hfirst := (h payload List.mem_cons_self).samples
    have hrest := ih fun p hp => h p (List.mem_cons_of_mem payload hp)
    rw [List.flatten_cons,List.length_append]
    omega

theorem flatten_small {payloads : List Bytes} (h : ∀ p ∈ payloads, Whole p) :
    payloads.flatten.length ≤ payloads.length * 65536 := by
  induction payloads with
  | nil => exact Nat.zero_le _
  | cons payload payloads ih =>
    have hfirst := (h payload List.mem_cons_self).small
    have hrest := ih fun p hp => h p (List.mem_cons_of_mem payload hp)
    rw [List.flatten_cons,List.length_append,List.length_cons]
    omega

namespace InputWindow

variable {w w' : InputWindow} {frame : LocalPcmFrame} {ready : List Bytes}

/-- The frames that have run ahead hold whole payloads. -/
def HoldsWhole (w : InputWindow) : Prop := ∀ sequence payload, w.pending.get sequence = some payload → Whole payload

theorem accept_input (h : w.accept frame = .ok (ready,w')) (hgeneration : frame.generation = w.generation) :
    frame.direction = .input := by
  unfold accept at h
  rw [if_neg (not_not.mpr hgeneration)] at h
  by_contra hdirection
  rw [if_pos hdirection] at h
  exact nomatch h

theorem Releases.whole (h : w.Releases ready w') (hw : w.HoldsWhole) : (∀ p ∈ ready, Whole p) ∧ w'.HoldsWhole := by
  constructor
  · intro payload hpayload
    have hmem : some payload ∈ (List.range' (w.highestContiguous + 1) ready.length).map w.pending.get := by
      rw [h.payloads]
      exact List.mem_map_of_mem hpayload
    obtain ⟨sequence,_,hget⟩ := List.mem_map.mp hmem
    exact hw sequence payload hget
  · intro sequence payload hget
    rw [h.pending] at hget
    split at hget
    · cases hget
    · exact hw sequence payload hget

/-- A frame that has been decoded keeps them so. -/
theorem accept_whole {bytes : Bytes} (hframe : decodePcmFrame bytes = .ok frame) (h : w.accept frame = .ok (ready,w'))
    (hw : w.HoldsWhole) : (∀ p ∈ ready, Whole p) ∧ w'.HoldsWhole := by
  obtain ⟨rfl,rfl,_⟩ | ⟨hgeneration,_,_,hreleases⟩ := accept_cases h
  · exact ⟨nofun,hw⟩
  · apply hreleases.whole
    intro sequence payload hget
    rw [Dict.get_set] at hget
    split at hget
    · obtain rfl := Option.some.inj hget
      obtain ⟨_,_,hfilled,hsamples,hlimit⟩ := decodePcmFrame_ok hframe
      rw [accept_input h hgeneration] at hlimit
      exact ⟨hfilled,hsamples,hlimit⟩
    · exact hw sequence payload hget

end InputWindow

namespace Controller

open Run Relation Mover

variable {c : LocalConfig} {s s' s₀ u : Controller} {a : ChannelAction} {mover : Mover} {m : Prog RunPoint Unit} {rest : List Bytes}

/-- The payloads are whole, in the batch and in the window. -/
structure Gathered (s : Controller) : Prop where
  batch : ∀ p ∈ s.inputBatch, Whole p
  window : ∀ w, s.inputWindow = some w → w.HoldsWhole

/-- And a flush has something to send, and no more than a full batch; otherwise the batch is not full. -/
def GatheredAt (c : LocalConfig) (s : Controller) (point : RunPoint) : Prop :=
  Gathered s ∧ (∀ p ∈ point.rest, Whole p) ∧
    if point.isFlushing then s.inputBatch ≠ [] ∧ s.inputBatch.length ≤ c.inputBatchFrames
    else s.inputBatch.length < c.inputBatchFrames

theorem Gathered.same (h : Gathered s) (hu : SameInput s u) : Gathered u := by
  refine ⟨?_,?_⟩
  · rw [hu.batch]
    exact h.batch
  · rw [hu.window]
    exact h.window

theorem Gathered.at (h : Gathered s) {point : RunPoint} (hpoint : point.isFlushing = false)
    (hopen : s.inputBatch.length < c.inputBatchFrames) : GatheredAt c s point := by
  refine ⟨h,?_,?_⟩
  · rw [RunPoint.rest_still hpoint]
    exact fun _ hp => nomatch hp
  · rw [if_neg (by simp [hpoint])]
    exact hopen

/-- A handler gathers whole payloads: where it is suspended, or it leaves. -/
structure Gathers (c : LocalConfig) (m : Prog RunPoint Unit) (s : Controller) : Prop where
  ok : ∀ u, m s = .ok () u → u.terminal ∨ Gathered u ∧ u.inputBatch.length < c.inputBatchFrames
  parks : ∀ point u, m s = .park point u → point.isLeaving ∨ GatheredAt c u point

section Gathers

theorem gathers_raise {e : LocalExn} : Gathers c (raise e) s :=
  ⟨fun _ hu => (nomatch hu),fun _ _ hu => (nomatch hu)⟩

theorem gathers_pure (h : s.terminal ∨ Gathered s ∧ s.inputBatch.length < c.inputBatchFrames) : Gathers c (pure ()) s := by
  refine ⟨fun u hu => ?_,fun _ _ hu => (nomatch hu)⟩
  obtain ⟨-,rfl⟩ := Outcome.ok.inj hu
  exact h

theorem gathers_park {point : RunPoint} (hm : m s = .park point u) (h : GatheredAt c u point) : Gathers c m s := by
  refine ⟨fun v hv => ?_,fun p v hv => ?_⟩ <;> rw [hm] at hv
  · exact nomatch hv
  · obtain ⟨rfl,rfl⟩ := Outcome.park.inj hv
    exact .inr h

theorem gathers_still {point : RunPoint} (hm : m s = .park point u) (hpoint : point.isFlushing = false) (hu : Gathered u)
    (hopen : u.inputBatch.length < c.inputBatchFrames) : Gathers c m s := gathers_park hm (hu.at hpoint hopen)

theorem gathers_last {f : Controller → Controller} (h : Gathered (f s)) (hopen : (f s).inputBatch.length < c.inputBatchFrames) :
    Gathers c (modify f) s := by
  refine ⟨fun u hu => ?_,fun _ _ hu => (nomatch hu)⟩
  obtain ⟨-,rfl⟩ := Outcome.ok.inj hu
  exact .inr ⟨h,hopen⟩

theorem gathers_get {k : Controller → Prog RunPoint Unit} (h : Gathers c (k s) s) : Gathers c (get >>= k) s := ⟨h.ok,h.parks⟩

theorem gathers_modify {f : Controller → Controller} {k : Unit → Prog RunPoint Unit} (h : Gathers c (k ()) (f s)) :
    Gathers c (modify f >>= k) s := ⟨h.ok,h.parks⟩

theorem gathers_ite {p : Prop} [Decidable p] {n : Prog RunPoint Unit} (hm : p → Gathers c m s) (hn : ¬p → Gathers c n s) :
    Gathers c (if p then m else n) s := by
  split
  · exact hm ‹_›
  · exact hn ‹_›

theorem gathers_ofExcept {α : Type} {x : Except LocalExn α} {k : α → Prog RunPoint Unit}
    (h : ∀ a, x = .ok a → Gathers c (k a) s) : Gathers c (ofExcept x >>= k) s := by
  cases x with
  | error e => exact gathers_raise
  | ok a =>
    have ha := h a rfl
    exact ⟨ha.ok,ha.parks⟩

/-- What leaves the input alone. -/
theorem gathers_within (h : Within (Aside mover) (RunCalm s₀) m s) (hs : Gathered s) (hopen : s.inputBatch.length < c.inputBatchFrames) :
    Gathers c m s := by
  have hkept : ∀ {v}, ReflTransGen (Aside mover) s v → Gathered v ∧ v.inputBatch.length < c.inputBatchFrames := by
    intro v hv
    have hsame := sameInput_asides hv
    exact ⟨hs.same hsame,hsame.batch.symm ▸ hopen⟩
  refine ⟨fun u hu => .inr (hkept (h.ok hu)),fun point u hu => .inr ?_⟩
  obtain ⟨hgathered,hlength⟩ := hkept (h.parked hu)
  exact hgathered.at (h.parks point u hu).2 hlength

theorem gathers_acknowledge (h : Gathered s) (hopen : s.inputBatch.length < c.inputBatchFrames) : Gathers c (acknowledge c) s := by
  refine gathers_get (gathers_ite (fun _ => gathers_get ?_) fun _ => gathers_ite (fun _ => ?_) fun _ => gathers_pure (.inr ⟨h,hopen⟩))
  · split
    · exact gathers_raise
    · exact gathers_still rfl rfl ⟨h.batch,h.window⟩ hopen
  · exact gathers_last ⟨h.batch,h.window⟩ hopen

theorem gathers_sendBatch {next : FlushNext} (h : Gathered s) (hne : s.inputBatch ≠ []) (hfull : s.inputBatch.length ≤ c.inputBatchFrames)
    (hrest : ∀ p ∈ (RunPoint.flushing next).rest, Whole p) : Gathers c (sendBatch next) s :=
  gathers_get (gathers_ite (fun _ => gathers_raise) fun _ => gathers_park rfl ⟨h,hrest,by
    rw [if_pos (show (RunPoint.flushing next).isFlushing = true from rfl)]
    exact ⟨hne,hfull⟩⟩)

/-- A batch grows by one payload at a time, and is flushed when it is full. -/
theorem gathers_collect (h : Gathered s) (hrest : ∀ p ∈ rest, Whole p) (hopen : s.inputBatch.length < c.inputBatchFrames) :
    Gathers c (collect c rest) s := by
  induction rest generalizing s with
  | nil => exact gathers_acknowledge h hopen
  | cons pcm rest ih =>
    have hlength : (s.inputBatch ++ [pcm]).length = s.inputBatch.length + 1 := by simp
    have hpushed : Gathered { s with inputBatch := s.inputBatch ++ [pcm] } := by
      refine ⟨fun p hp => ?_,h.window⟩
      rcases List.mem_append.mp hp with hp | hp
      · exact h.batch p hp
      · rw [List.mem_singleton.mp hp]
        exact hrest pcm List.mem_cons_self
    have hothers : ∀ p ∈ rest, Whole p := fun p hp => hrest p (List.mem_cons_of_mem pcm hp)
    refine gathers_modify (gathers_get (gathers_ite (fun hfull => ?_) fun hmore => ?_))
    · exact gathers_sendBatch hpushed (by simp) (by simp; omega) hothers
    · exact ih hpushed hothers (not_le.mp hmore)

theorem gathers_afterFlush {next : FlushNext} (h : Gathered s) (hrest : ∀ p ∈ (RunPoint.flushing next).rest, Whole p)
    (hopen : s.inputBatch.length < c.inputBatchFrames) : Gathers c (afterFlush c next) s := by
  refine gathers_get (gathers_ite (fun hterminal => gathers_pure (.inl hterminal)) fun _ => ?_)
  cases next with
  | audio rest => exact gathers_collect h hrest hopen
  | bargeIn => exact gathers_park rfl (h.at rfl hopen)
  | stop reason => exact gathers_still rfl rfl ⟨h.batch,h.window⟩ hopen

theorem gathers_flushInputBatch {next : FlushNext} (h : Gathered s) (hnext : (RunPoint.flushing next).rest = [])
    (hopen : s.inputBatch.length < c.inputBatchFrames) : Gathers c (flushInputBatch c next) s := by
  have hrest : ∀ p ∈ (RunPoint.flushing next).rest, Whole p := by
    rw [hnext]
    exact fun _ hp => nomatch hp
  exact gathers_get (gathers_ite (fun _ => gathers_afterFlush h hrest hopen) fun hne =>
    gathers_sendBatch h hne (Nat.le_of_lt hopen) hrest)

theorem gathers_handleInputAudio {payload : Bytes} (h : Gathered s) (hopen : s.inputBatch.length < c.inputBatchFrames) :
    Gathers c (handleInputAudio c payload) s := by
  refine gathers_get ?_
  split
  · rename_i window hactive hwindow
    refine gathers_ofExcept fun frame hframe => gathers_ite (fun _ => ?_) fun _ => gathers_ofExcept fun (ready,window') haccept => ?_
    · exact gathers_last ⟨h.batch,h.window⟩ hopen
    · obtain ⟨hready,hwhole⟩ := InputWindow.accept_whole hframe haccept (h.window window hwindow)
      have htaken : Gathered { s.observe (.received frame) with inputWindow := some window' } := by
        refine ⟨h.batch,fun w hw => ?_⟩
        obtain rfl := Option.some.inj hw
        exact hwhole
      refine gathers_modify (gathers_ite (fun _ => ?_) fun _ => gathers_collect htaken hready hopen)
      exact gathers_last ⟨htaken.batch,htaken.window⟩ hopen
  · exact gathers_raise

theorem gathers_stopCall {value : Json.Object} (h : Gathered s) (hopen : s.inputBatch.length < c.inputBatchFrames) :
    Gathers c (stopCall c value) s := by
  refine gathers_get (gathers_ite (fun _ => gathers_raise) fun _ => ?_)
  split
  · exact gathers_ite (fun _ => gathers_raise) fun _ => gathers_raise
  · exact gathers_ite (fun _ => gathers_raise) fun _ =>
      gathers_modify (gathers_flushInputBatch ⟨h.batch,h.window⟩ rfl hopen)

theorem gathers_handleText {payload : Payload} (h : Gathered s) (hopen : s.inputBatch.length < c.inputBatchFrames)
    (hfree : s.started = false → s.terminal = false ∧ s.events = none) : Gathers c (handleText c payload) s := by
  refine gathers_ofExcept fun (messageType,value) _ => gathers_get (gathers_ite (fun _ => ?_) fun _ => ?_)
  · exact gathers_last ⟨h.batch,h.window⟩ hopen
  · split
    · have hstart : WithinRun s (startCall value) s := within_startCall hfree
      exact gathers_within hstart h hopen
    · exact gathers_stopCall h hopen
    · exact gathers_ite (fun _ => gathers_raise) fun _ => gathers_flushInputBatch h rfl hopen
    · have hack : Within (Aside _) (RunCalm s) (handleOutputAck value) s := within_handleOutputAck
      exact gathers_within hack h hopen
    · exact gathers_raise

theorem gathers_receiveHello {payload : Payload} (h : Gathered s) (hopen : s.inputBatch.length < c.inputBatchFrames) :
    Gathers c (receiveHello payload) s := by
  refine gathers_ofExcept fun (messageType,value) _ => gathers_ite (fun _ => gathers_raise) fun _ => ?_
  split
  · refine gathers_ite (fun _ => gathers_raise) fun _ => gathers_last ⟨h.batch,fun w hw => ?_⟩ hopen
    obtain rfl := Option.some.inj hw
    exact fun _ _ hget => nomatch hget
  · exact gathers_raise

/-- The loop that receives goes on with a batch that is not full, or `run` leaves. -/
theorem Gathers.runBody (h : Gathers c m s) {point : RunPoint} (hpark : runBody m s = .park point u) :
    point.isLeaving ∨ GatheredAt c u point := by
  cases hm : m s with
  | park p v =>
    rw [runBody_park hm] at hpark
    obtain ⟨rfl,rfl⟩ := Outcome.park.inj hpark
    exact h.parks p v hm
  | raise e v =>
    rw [runBody_raise hm] at hpark
    have hwithin : WithinLeaving v (runRaised e) v := within_runRaised (.refl v)
    exact .inl (hwithin.parks point u hpark).2
  | ok x v =>
    rw [runBody_ok hm] at hpark
    rcases h.ok v hm with hterminal | ⟨hgathered,hopen⟩
    · have hwithin : WithinLeaving v (Controller.runBody (pure ())) v :=
        within_leavingBody (.refl v) within_pure fun w hw => (Outcome.ok.inj hw).2 ▸ hterminal
      exact .inl (hwithin.parks point u hpark).2
    · have hwithin : WithinRun v (Controller.runBody (pure ())) v := within_runBody (.refl v) within_pure
      have hsame := sameInput_asides (hwithin.parked hpark)
      exact .inr ((hgathered.same hsame).at (hwithin.parks point u hpark).2 (hsame.batch.symm ▸ hopen))

end Gathers

/-! The invariant. -/

/-- The batch is as it should be where `run` is suspended, until it leaves. -/
def Batched (c : LocalConfig) (s : Controller) : Prop := s.receiver.isLeaving ∨ GatheredAt c s s.receiver

theorem batched_settled {point : RunPoint} (h : point.isLeaving ∨ GatheredAt c u point) : Batched c { u with receiver := point } :=
  h.imp_right fun ⟨hgathered,hbatch⟩ => ⟨⟨hgathered.batch,hgathered.window⟩,hbatch⟩

theorem Gathers.settle (h : Gathers c m s) : Batched c (settleRun (Controller.runBody m) s) := by
  obtain ⟨point,u,hpark⟩ := runBody_parks m s
  simp only [settleRun,hpark]
  exact batched_settled (h.runBody hpark)

theorem batched_leaving (h : WithinLeaving s₀ m s) : Batched c (settleRun m s) := by
  obtain ⟨point,heq,⟨u,hpark⟩ | ⟨rfl,_⟩⟩ := settleRun_eq m s
  · rw [heq]
    exact .inl (h.parks point u hpark).2
  · rw [heq]
    exact .inl rfl

theorem batched_calm (h : WithinRun s₀ m s) (hs : Gathered s) (hopen : s.inputBatch.length < c.inputBatchFrames) :
    Batched c (settleRun m s) := by
  have hsame := sameInput_asides h.moves
  obtain ⟨point,heq,⟨u,hpark⟩ | ⟨rfl,_⟩⟩ := settleRun_eq m s
  · rw [heq]
    exact batched_settled (.inr ((hs.same hsame).at (h.parks point u hpark).2 (hsame.batch.symm ▸ hopen)))
  · rw [heq]
    exact .inl rfl

theorem Batched.open (h : Batched c s) (hstays : s.receiver.isLeaving = false) (hstill : s.receiver.isFlushing = false) :
    Gathered s ∧ s.inputBatch.length < c.inputBatchFrames := by
  rcases h with hleaving | ⟨hgathered,_,hbatch⟩
  · rw [hstays] at hleaving
    exact nomatch hleaving
  · rw [if_neg (by simp [hstill])] at hbatch
    exact ⟨hgathered,hbatch⟩

theorem Batched.run_step {signal : Signal} (h : Batched c s) (ho : Ordered s) (hm : resumeRun c s s.receiver signal = some m) :
    Batched c (settleRun m s) := by
  cases runStretch ho.starting hm with
  | leaving hwithin => exact batched_leaving hwithin
  | failing f hpoint =>
    obtain ⟨next,v,hstep,hv⟩ | hleaving := failing_run f s
    · rw [hv]
      exact .inl rfl
    · exact batched_leaving hleaving
  | calm hstill hstays hwithin =>
    obtain ⟨hgathered,hopen⟩ := h.open hstays hstill
    exact batched_calm hwithin hgathered hopen
  | hello payload hpoint =>
    obtain ⟨hgathered,hopen⟩ := h.open (by rw [hpoint]; rfl) (by rw [hpoint]; rfl)
    exact (gathers_receiveHello hgathered hopen).settle
  | text payload hpoint =>
    obtain ⟨hgathered,hopen⟩ := h.open (by rw [hpoint]; rfl) (by rw [hpoint]; rfl)
    exact (gathers_handleText hgathered hopen (ho.free (by rw [hpoint]; rfl))).settle
  | binary payload hpoint =>
    obtain ⟨hgathered,hopen⟩ := h.open (by rw [hpoint]; rfl) (by rw [hpoint]; rfl)
    exact (gathers_handleInputAudio hgathered hopen).settle
  | flushed next hpoint =>
    rcases h with hleaving | ⟨hgathered,hrest,_⟩
    · rw [hpoint] at hleaving
      exact nomatch hleaving
    · have hempty : Gathered s.flushed := ⟨nofun,hgathered.window⟩
      have hafter : Gathers c (afterFlush c next) s.flushed := gathers_afterFlush hempty (hpoint ▸ hrest) c.batch_pos
      exact (gathers_modify hafter).settle

theorem Batched.same (h : Batched c s) (hu : SameInput s u) (hreceiver : u.receiver = s.receiver) : Batched c u := by
  unfold Batched GatheredAt
  rw [hreceiver,hu.batch]
  exact h.imp_right fun h => ⟨h.1.same hu,h.2⟩

theorem Batched.step (h : Batched c s) (ho : Ordered s) (ha : Controller.step c s a = some s') : Batched c s' := by
  obtain ⟨signal,m,rfl,hm,rfl⟩ | ⟨signal,e,m,rfl,he,hm,rfl⟩ | ⟨signal,t,m,rfl,ht,_,hm,rfl⟩ | ⟨rfl,rfl⟩ := step_cases ha
  · exact h.run_step ho hm
  · obtain ⟨hsame,hreceiver,_⟩ := events_aside hm
    exact h.same hsame hreceiver
  · obtain ⟨hsame,hreceiver⟩ := timer_aside ht hm
    exact h.same hsame hreceiver
  · exact h.imp_right fun ⟨hgathered,hbatch⟩ => ⟨⟨hgathered.batch,hgathered.window⟩,hbatch⟩

theorem reachable_batched (h : Reachable c s) : Batched c s := by
  refine Transition.ReachableWith.invariant_with (J := Ordered) (fun s hs => reachable_ordered hs) (fun s hs => ?_)
    (fun s a s' ho hI _ hstep => hI.step ho hstep) h
  obtain rfl : s = {} := hs
  have hgathered : Gathered {} := ⟨fun _ hp => absurd hp List.not_mem_nil,fun w hw => absurd (show none = some w from hw) (by simp)⟩
  exact .inr (hgathered.at rfl c.batch_pos)

/-- What a flush hands to the session is whole samples, up to a full batch of the largest frames. -/
theorem flushed_samples (h : Reachable c s) {next : FlushNext} (hpoint : s.receiver = .flushing next) :
    s.inputBatch.flatten ≠ [] ∧ s.inputBatch.flatten.length % 2 = 0 ∧
      s.inputBatch.flatten.length ≤ c.inputBatchFrames * 65536 := by
  rcases reachable_batched h with hleaving | ⟨hgathered,_,hbatch⟩
  · rw [hpoint] at hleaving
    exact nomatch hleaving
  · rw [hpoint,if_pos (show (RunPoint.flushing next).isFlushing = true from rfl)] at hbatch
    refine ⟨fun hnil => ?_,flatten_samples hgathered.batch,?_⟩
    · obtain ⟨payload,hpayload⟩ := List.exists_mem_of_ne_nil _ hbatch.1
      exact (hgathered.batch payload hpayload).filled (List.flatten_eq_nil_iff.mp hnil payload hpayload)
    · exact (flatten_small hgathered.batch).trans (Nat.mul_le_mul_right _ hbatch.2)

/-! A batch of two frames. -/

/-- The next frame leaves a window without frames that have run ahead. -/
theorem accept_next (n : ℕ) {payload : Bytes} (h : payload.length ≤ windowBytes) :
    InputWindow.accept { generation := 1, highestContiguous := n } ⟨.input,1,n + 1,payload⟩ =
      .ok ([payload],{ generation := 1, highestContiguous := n + 1 }) := by
  have hempty : ∀ d : Dict ℕ Bytes, d.entries = [] → d = ∅ := by
    rintro ⟨es,hnodup⟩ rfl
    rfl
  have herased : ((∅ : Dict ℕ Bytes).set (n + 1) payload).erase (n + 1) = ∅ := by
    apply hempty
    show Entries.erase (n + 1) [(n + 1,payload)] = []
    simp [Entries.erase]
  have hget : ((∅ : Dict ℕ Bytes).set (n + 1) payload).get (n + 1) = some payload := Dict.get_set_self ..
  have hsize : ((∅ : Dict ℕ Bytes).set (n + 1) payload).size = 1 := rfl
  unfold InputWindow.accept
  rw [if_neg (by simp),if_neg (by simp),if_neg (by simp),if_neg (by simp [windowFrames]),if_neg (by simpa using h)]
  simp only [hsize,InputWindow.drain,hget,herased,Nat.zero_add,Nat.sub_self]

/-- The call has taken `n` frames of the largest size, and all of them are in the batch. -/
structure Collected (c : LocalConfig) (n : ℕ) (s : Controller) : Prop where
  reach : Reachable c s
  receiver : s.receiver = .receiving
  ready : s.ready = true
  session : s.hasSession = true
  free : s.terminal = false
  generation : s.generation = 1
  sinceAck : s.inputSinceAck = 0
  batch : s.inputBatch = List.replicate n InputWindow.silence
  window : s.inputWindow = some { generation := 1, highestContiguous := n }

theorem collected_none (c : LocalConfig) : ∃ s, Collected c 0 s := by
  refine ⟨sampleCall c [],sampleCall_reachable rfl,?_,?_,?_,?_,?_,?_,?_,?_⟩ <;> rfl

/-- One more frame is collected. -/
theorem Collected.collects {n : ℕ} (h : Collected c n s) (hsmall : n + 1 < 256 ^ 8) : ∃ payload window,
    handleInputAudio c payload s = collect c [InputWindow.silence] { s.observe (.received (InputWindow.largeFrame (n + 1))) with
      inputWindow := some window } ∧ window = { generation := 1, highestContiguous := n + 1 } := by
  obtain ⟨payload,hpayload⟩ : InputWindow.Valid (InputWindow.largeFrame (n + 1)) := InputWindow.valid_largeFrame (by omega) hsmall
  have hlength : InputWindow.silence.length ≤ windowBytes := by
    rw [show InputWindow.silence.length = 65536 from List.length_replicate]
    decide
  have haccept : InputWindow.accept { generation := 1, highestContiguous := n } (InputWindow.largeFrame (n + 1)) =
      .ok ([InputWindow.silence],{ generation := 1, highestContiguous := n + 1 }) := accept_next n hlength
  refine ⟨payload,_,?_,rfl⟩
  have hgeneration : ¬(InputWindow.largeFrame (n + 1)).generation ≠ s.generation := by
    rw [h.generation]
    exact not_not.mpr rfl
  have hready : ¬([InputWindow.silence] = [] ∧ (InputWindow.largeFrame (n + 1)).sequence ≤ max n (n + 1)) :=
    fun hnone => List.cons_ne_nil _ _ hnone.1
  simp only [handleInputAudio,get_bind,h.ready,h.session,h.window,Bool.and_self,hpayload,Run.ofExcept,pure_bind_apply,
    if_neg hgeneration,haccept,modify_bind,if_neg hready]

theorem step_binary (payload : Bytes) (h : s.receiver = .receiving) :
    step c s (.run (.binary payload)) = some (settleRun (runBody (handleInputAudio c payload)) s) := by
  simp only [step,resumeRun,h,Option.map_some]

theorem step_text (payload : Payload) (h : s.receiver = .receiving) :
    step c s (.run (.text payload)) = some (settleRun (runBody (handleText c payload)) s) := by
  simp only [step,resumeRun,h,Option.map_some]

theorem settle_park {point : RunPoint} (h : m s = .park point u) : settleRun (runBody m) s = { u with receiver := point } := by
  simp only [settleRun,runBody_park h]

theorem settle_ok (h : m s = .ok () u) (hfree : u.terminal = false) : settleRun (runBody m) s = { u with receiver := .receiving } := by
  have hpark : runBody (pure ()) u = .park .receiving u := by
    simp [runBody,Run.handle,receiveLoop,hfree,Run.bind_apply]
  simp only [settleRun,runBody_ok h,hpark]

/-- A batch that is not full is kept. -/
theorem Collected.more {n : ℕ} (h : Collected c n s) (hsmall : n + 1 < 256 ^ 8) (hopen : n + 1 < c.inputBatchFrames) :
    ∃ u, Collected c (n + 1) u := by
  obtain ⟨payload,window,hcollect,hwindow⟩ := h.collects hsmall
  let t : Controller := { s.observe (.received (InputWindow.largeFrame (n + 1))) with
    inputWindow := some window
    inputBatch := s.inputBatch ++ [InputWindow.silence] }
  have hack : acknowledge c t = .ok () t := by
    have hnone : t.inputSinceAck = 0 := h.sinceAck
    have hdue : ¬c.ackEveryFrames ≤ 0 := not_le.mpr c.ack_pos
    simp [acknowledge,hnone,hdue]
  have hunfilled : s.inputBatch.length + 1 < c.inputBatchFrames := by
    rw [h.batch,List.length_replicate]
    exact hopen
  have hall : handleInputAudio c payload s = .ok () t := by
    rw [hcollect,collect_unfilled (.inr hunfilled)]
    exact hack
  have hstep := (step_binary (c := c) payload h.receiver).trans (congrArg some (settle_ok hall h.free))
  refine ⟨_,h.reach.tail trivial hstep,rfl,h.ready,h.session,h.free,h.generation,h.sinceAck,?_,congrArg some hwindow⟩
  show s.inputBatch ++ [InputWindow.silence] = List.replicate (n + 1) InputWindow.silence
  rw [h.batch,List.replicate_succ']

/-- The frame that fills the batch is flushed with it. -/
theorem Collected.fills {n : ℕ} (h : Collected c n s) (hsmall : n + 1 < 256 ^ 8) (hfull : c.inputBatchFrames = n + 1) :
    ∃ u next, Reachable c u ∧ u.receiver = .flushing next ∧ u.inputBatch = List.replicate (n + 1) InputWindow.silence := by
  obtain ⟨payload,window,hcollect,hwindow⟩ := h.collects hsmall
  let t : Controller := { s.observe (.received (InputWindow.largeFrame (n + 1))) with
    inputWindow := some window
    inputBatch := s.inputBatch ++ [InputWindow.silence] }
  have hlength : c.inputBatchFrames ≤ t.inputBatch.length := by
    show c.inputBatchFrames ≤ (s.inputBatch ++ [InputWindow.silence]).length
    rw [h.batch,List.length_append,List.length_replicate,hfull]
    exact le_rfl
  have hsession : t.hasSession = true := h.session
  have hall : handleInputAudio c payload s = .park (.flushing (.audio [])) t := by
    rw [hcollect]
    show (if c.inputBatchFrames ≤ t.inputBatch.length then sendBatch (.audio []) else collect c []) t = _
    rw [if_pos hlength]
    simp [sendBatch,hsession]
  have hstep := (step_binary (c := c) payload h.receiver).trans (congrArg some (settle_park hall))
  refine ⟨_,_,h.reach.tail trivial hstep,rfl,?_⟩
  show s.inputBatch ++ [InputWindow.silence] = List.replicate (n + 1) InputWindow.silence
  rw [h.batch,List.replicate_succ']

def bargeInMessage : Payload := localText [("type",.str "call.barge_in"), ("generation",.int 1)]

/-- A barge-in flushes what there is. -/
theorem Collected.bargesIn {n : ℕ} (h : Collected c n s) (hn : n ≠ 0) :
    ∃ u next, Reachable c u ∧ u.receiver = .flushing next ∧ u.inputBatch = List.replicate n InputWindow.silence := by
  have hne : s.inputBatch ≠ [] := by
    rw [h.batch]
    exact fun hnil => hn ((List.replicate_eq_nil_iff _).mp hnil)
  have hdecode : decodeLocalMessage bargeInMessage = .ok ("call.barge_in",[("type",.str "call.barge_in"), ("generation",.int 1)]) := rfl
  have hsend : sendBatch .bargeIn s = .park (.flushing .bargeIn) s := by simp [sendBatch,h.session]
  have hall : handleText c bargeInMessage s = .park (.flushing .bargeIn) s := by
    rw [handleText,hdecode]
    show (if some 1 ≠ some (s.generation : ℤ) then Run.modify late
      else if !s.ready || !s.hasSession then protocolError "call is not active" else flushInputBatch c .bargeIn) s = _
    rw [if_neg (by rw [h.generation]; decide),h.ready,h.session]
    simp only [flushInputBatch,Bool.not_true,Bool.or_false,Bool.false_eq_true,if_false,get_bind,if_neg hne]
    exact hsend
  have hstep := (step_text (c := c) bargeInMessage h.receiver).trans (congrArg some (settle_park hall))
  exact ⟨_,_,h.reach.tail trivial hstep,rfl,h.batch⟩

/-- Two frames of the largest size are sent in one batch, if a batch may hold two frames. -/
theorem two_frames_flushed (h : 1 < c.inputBatchFrames) : ∃ s next, Reachable c s ∧ s.receiver = .flushing next ∧
    s.inputBatch.flatten.length = 131072 := by
  have hlength : InputWindow.silence.length = 65536 := List.length_replicate
  have htwo : ∀ s : Controller, s.inputBatch = List.replicate 2 InputWindow.silence → s.inputBatch.flatten.length = 131072 := by
    intro s hs
    rw [hs,List.replicate_succ,List.replicate_one,List.flatten_cons,List.flatten_singleton,List.length_append,hlength]
  obtain ⟨s₀,hnone⟩ := collected_none c
  obtain ⟨s,hone⟩ := hnone.more (by decide) h
  by_cases hfull : c.inputBatchFrames = 2
  · obtain ⟨u,next,hreach,hpoint,hbatch⟩ := hone.fills (by decide) hfull
    exact ⟨u,next,hreach,hpoint,htwo u hbatch⟩
  · obtain ⟨t,ht⟩ := hone.more (by decide) (by omega)
    obtain ⟨u,next,hreach,hpoint,hbatch⟩ := ht.bargesIn (by decide)
    exact ⟨u,next,hreach,hpoint,htwo u hbatch⟩

/-- Every batch that is handed to a session with the limits of the packages passes its checks exactly when a batch holds one frame. -/
theorem batches_sendable (c : LocalConfig) :
    (∀ s next, Reachable c s → s.receiver = .flushing next → Sendable {} s.inputBatch.flatten) ↔ c.inputBatchFrames = 1 := by
  constructor
  · intro hall
    by_contra hne
    have hpos := c.batch_pos
    obtain ⟨s,next,hreach,hpoint,hlength⟩ := two_frames_flushed (c := c) (by omega)
    have hlimit := (hall s next hreach hpoint).2.2
    rw [hlength] at hlimit
    exact absurd hlimit (by decide)
  · intro hone s next hreach hpoint
    obtain ⟨hne,hsamples,hsmall⟩ := flushed_samples hreach hpoint
    rw [hone,Nat.one_mul] at hsmall
    exact ⟨hne,hsamples,hsmall⟩

/-- Two frames of the largest size, in a batch of two. -/
theorem oversized_batch : ∃ s next, Reachable { inputBatchFrames := 2 } s ∧ s.receiver = .flushing next ∧
    ¬Sendable {} s.inputBatch.flatten := by
  obtain ⟨s,next,hreach,hpoint,hlength⟩ := two_frames_flushed (c := { inputBatchFrames := 2 }) (by decide)
  refine ⟨s,next,hreach,hpoint,fun hsend => ?_⟩
  have hlimit := hsend.2.2
  rw [hlength] at hlimit
  exact absurd hlimit (by decide)

end Controller
end Local
end HarnessSdk
