import HarnessSdk.LocalOutput

/-!
# The flow control of the output

`_send_output_chunk` allocates a number for each chunk and `_handle_output_ack` takes the acknowledged chunks out of the
window. The window holds the sizes of the chunks that are not acknowledged, and the position that the product reports stays
within the audio that it has acknowledged.
-/

namespace HarnessSdk
namespace Local

/-! Numbered sizes. -/

/-- The sizes with the numbers that follow the given one. -/
def number (start : ℕ) : List ℕ → List (ℕ × ℕ)
  | [] => []
  | size :: sizes => (start + 1,size) :: number (start + 1) sizes

@[simp] theorem number_nil (start : ℕ) : number start [] = [] := rfl

theorem number_cons (start size : ℕ) (sizes : List ℕ) :
    number start (size :: sizes) = (start + 1,size) :: number (start + 1) sizes := rfl

theorem number_fst (start : ℕ) (sizes : List ℕ) : (number start sizes).map Prod.fst = List.range' (start + 1) sizes.length := by
  induction sizes generalizing start with
  | nil => rfl
  | cons size sizes ih => rw [number_cons,List.map_cons,ih,List.length_cons,List.range'_succ]

theorem number_snd (start : ℕ) (sizes : List ℕ) : (number start sizes).map Prod.snd = sizes := by
  induction sizes generalizing start with
  | nil => rfl
  | cons size sizes ih => rw [number_cons,List.map_cons,ih]

theorem number_length (start : ℕ) (sizes : List ℕ) : (number start sizes).length = sizes.length := by
  rw [← List.length_map Prod.snd,number_snd]

theorem number_concat (start : ℕ) (sizes : List ℕ) (size : ℕ) :
    number start (sizes ++ [size]) = number start sizes ++ [(start + sizes.length + 1,size)] := by
  induction sizes generalizing start with
  | nil => rfl
  | cons first sizes ih =>
    have hnext : start + 1 + sizes.length = start + (sizes.length + 1) := by omega
    rw [List.cons_append,number_cons,ih,number_cons,List.cons_append,List.length_cons,hnext]

theorem drop_number (start k : ℕ) (sizes : List ℕ) : (number start sizes).drop k = number (start + k) (sizes.drop k) := by
  induction sizes generalizing start k with
  | nil => simp
  | cons size sizes ih =>
    cases k with
    | zero => rfl
    | succ k =>
      have hnext : start + 1 + k = start + (k + 1) := by omega
      rw [number_cons,List.drop_succ_cons,ih,List.drop_succ_cons,hnext]

/-- What is numbered up to `highest` comes first. -/
theorem takeWhile_number (start highest : ℕ) (sizes : List ℕ) :
    ((number start sizes).takeWhile fun entry => entry.1 ≤ highest) = number start (sizes.take (highest - start)) := by
  induction sizes generalizing start with
  | nil => simp
  | cons size sizes ih =>
    by_cases h : start + 1 ≤ highest
    · have hmore : highest - start = highest - (start + 1) + 1 := by omega
      rw [number_cons,List.takeWhile_cons_of_pos (by simpa using h),ih,hmore,List.take_succ_cons,number_cons]
    · have hnone : highest - start = 0 := by omega
      rw [number_cons,List.takeWhile_cons_of_neg (by simpa using h),hnone,List.take_zero,number_nil]

theorem filter_number (start highest : ℕ) (sizes : List ℕ) :
    ((number start sizes).filter fun entry => entry.1 ≤ highest) = number start (sizes.take (highest - start)) := by
  induction sizes generalizing start with
  | nil => simp
  | cons size sizes ih =>
    by_cases h : start + 1 ≤ highest
    · have hmore : highest - start = highest - (start + 1) + 1 := by omega
      rw [number_cons,List.filter_cons_of_pos (by simpa using h),ih,hmore,List.take_succ_cons,number_cons]
    · have hnone : highest - start = 0 := by omega
      have hrest : highest - (start + 1) = 0 := by omega
      rw [number_cons,List.filter_cons_of_neg (by simpa using h),ih,hnone,hrest,List.take_zero,List.take_zero]
      rfl

/-- What is numbered behind `start + k`. -/
theorem filter_number_behind (start k : ℕ) (sizes : List ℕ) :
    ((number start sizes).filter fun entry => start + k < entry.1) = number (start + k) (sizes.drop k) := by
  induction sizes generalizing start k with
  | nil => simp
  | cons size sizes ih =>
    cases k with
    | zero =>
      have hall : ((number start (size :: sizes)).filter fun entry => start + 0 < entry.1) = number start (size :: sizes) := by
        rw [List.filter_eq_self]
        intro entry hentry
        have hfst := List.mem_map_of_mem (f := Prod.fst) hentry
        rw [number_fst,List.mem_range'_1] at hfst
        simp only [decide_eq_true_eq]
        omega
      rw [hall]
      rfl
    | succ k =>
      have hnext : start + (k + 1) = start + 1 + k := by omega
      rw [number_cons,List.filter_cons_of_neg (by simp),hnext,ih,List.drop_succ_cons]

/-! The counters. -/

namespace OutputFlow

variable {o : OutputFlow} {sizes : List ℕ}

/-- The counters are right when these are the sizes of all chunks that have got a number. -/
structure Counts (o : OutputFlow) (sizes : List ℕ) : Prop where
  sequence : sizes.length = o.sequence
  acked : o.acked ≤ o.sequence
  pending : o.pending = number o.acked (sizes.drop o.acked)
  pendingBytes : o.pendingBytes = (sizes.drop o.acked).sum
  ackedBytes : o.ackedBytes = (sizes.take o.acked).sum
  frames : o.pending.length ≤ windowFrames
  bytes : o.pendingBytes ≤ windowBytes

theorem Counts.init : Counts {} [] := ⟨rfl,le_rfl,rfl,rfl,rfl,Nat.zero_le _,Nat.zero_le _⟩

theorem Counts.sent (h : o.Counts sizes) (size : ℕ) : (o.sent size).Counts sizes :=
  ⟨h.sequence,h.acked,h.pending,h.pendingBytes,h.ackedBytes,h.frames,h.bytes⟩

theorem Counts.push (h : o.Counts sizes) {size : ℕ} (hframes : o.pending.length < windowFrames)
    (hbytes : o.pendingBytes + size ≤ windowBytes) : (o.push size).Counts (sizes ++ [size]) := by
  have hacked : o.acked ≤ sizes.length := h.sequence ▸ h.acked
  have hdrop : (sizes ++ [size]).drop o.acked = sizes.drop o.acked ++ [size] := List.drop_append_of_le_length hacked
  have hnext : o.acked + (sizes.drop o.acked).length + 1 = o.sequence + 1 := by
    rw [List.length_drop,← h.sequence]
    omega
  refine ⟨?_,Nat.le_succ_of_le h.acked,?_,?_,?_,?_,hbytes⟩
  · rw [List.length_append,h.sequence]
    rfl
  · show o.pending ++ [(o.sequence + 1,size)] = number o.acked ((sizes ++ [size]).drop o.acked)
    rw [hdrop,number_concat,hnext,h.pending]
  · show o.pendingBytes + size = ((sizes ++ [size]).drop o.acked).sum
    rw [hdrop,List.sum_append,h.pendingBytes]
    simp
  · show o.ackedBytes = ((sizes ++ [size]).take o.acked).sum
    rw [List.take_append_of_le_length hacked,h.ackedBytes]
  · show (o.pending ++ [(o.sequence + 1,size)]).length ≤ windowFrames
    rw [List.length_append]
    exact hframes

/-- What is acknowledged up to `highest`. -/
theorem Counts.coveredBytes (h : o.Counts sizes) (highest : ℕ) :
    o.coveredBytes highest = (sizes.take (max o.acked highest)).sum := by
  have htake : sizes.take (max o.acked highest) = sizes.take o.acked ++ (sizes.drop o.acked).take (highest - o.acked) := by
    have hmax : max o.acked highest = o.acked + (highest - o.acked) := by omega
    rw [hmax,List.take_add]
  unfold OutputFlow.coveredBytes
  rw [h.pending,filter_number,number_snd,htake,List.sum_append,h.ackedBytes]

theorem Counts.acknowledge (h : o.Counts sizes) {highest : ℕ} (hsent : highest ≤ o.sequence) (position : ℤ) :
    (o.acknowledge highest position).Counts sizes ∧ (o.acknowledge highest position).ackedBytes = o.coveredBytes highest := by
  have hcovered := h.coveredBytes highest
  unfold OutputFlow.acknowledge
  split
  next hold =>
    rw [max_eq_left hold,← h.ackedBytes] at hcovered
    exact ⟨⟨h.sequence,h.acked,h.pending,h.pendingBytes,h.ackedBytes,h.frames,h.bytes⟩,hcovered.symm⟩
  next hnew =>
    have hmore : o.acked + (highest - o.acked) = highest := by omega
    have htaken : (o.pending.takeWhile fun entry => entry.1 ≤ highest) =
        number o.acked ((sizes.drop o.acked).take (highest - o.acked)) := by rw [h.pending,takeWhile_number]
    have hlength : (o.pending.takeWhile fun entry => entry.1 ≤ highest).length = highest - o.acked := by
      rw [htaken,number_length,List.length_take,List.length_drop,h.sequence]
      omega
    have hsize : ((o.pending.takeWhile fun entry => entry.1 ≤ highest).map Prod.snd).sum =
        ((sizes.drop o.acked).take (highest - o.acked)).sum := by rw [htaken,number_snd]
    have hsplit : ((sizes.drop o.acked).take (highest - o.acked)).sum + (sizes.drop highest).sum = (sizes.drop o.acked).sum := by
      rw [← hmore,← List.drop_drop,hmore,← List.sum_append,List.take_append_drop]
    have hacked : o.ackedBytes + ((sizes.drop o.acked).take (highest - o.acked)).sum = (sizes.take highest).sum := by
      rw [h.ackedBytes,← List.sum_append,← List.take_add,hmore]
    dsimp only
    rw [hlength,hsize]
    refine ⟨⟨h.sequence,hsent,?_,?_,hacked,?_,?_⟩,?_⟩
    · show o.pending.drop (highest - o.acked) = number highest (sizes.drop highest)
      rw [h.pending,drop_number,List.drop_drop,hmore]
    · show o.pendingBytes - ((sizes.drop o.acked).take (highest - o.acked)).sum = (sizes.drop highest).sum
      rw [h.pendingBytes]
      omega
    · show (o.pending.drop (highest - o.acked)).length ≤ windowFrames
      rw [List.length_drop]
      exact (Nat.sub_le _ _).trans h.frames
    · exact (Nat.sub_le _ _).trans h.bytes
    · rw [hcovered,max_eq_right (Nat.le_of_lt (not_le.mp hnew))]
      exact hacked

end OutputFlow

namespace Controller

open Run Relation Mover

variable {c : LocalConfig} {s s' u v : Controller} {a : ChannelAction} {mover : Mover} {sizes : List ℕ}

/-- The counters are right, and the position is within the audio that has been acknowledged. -/
structure Flows (s : Controller) (sizes : List ℕ) : Prop where
  counts : s.output.Counts sizes
  unready : s.ready = false → s.output.playedAudioMs = 0
  played : 0 ≤ s.output.playedAudioMs
  heard : s.output.playedAudioMs * s.output.byteRate ≤ s.output.ackedBytes * 1000

theorem Flows.same (h : Flows s sizes) (hready : u.ready = s.ready) (houtput : u.output = s.output) : Flows u sizes := by
  refine ⟨?_,?_,?_,?_⟩ <;> rw [houtput]
  · exact h.counts
  · rw [hready]
    exact h.unready
  · exact h.played
  · exact h.heard

theorem Flows.acknowledge (h : Flows s sizes) {highest : ℕ} {position : ℤ} (hdue : s.Due highest position) :
    Flows { s with output := s.output.acknowledge highest position } sizes := by
  obtain ⟨hcounts,hbytes⟩ := h.counts.acknowledge hdue.sent position
  have hplayed : (s.output.acknowledge highest position).playedAudioMs = position := by
    unfold OutputFlow.acknowledge
    split <;> rfl
  have hrate : (s.output.acknowledge highest position).byteRate = s.output.byteRate := by
    unfold OutputFlow.acknowledge
    split <;> rfl
  refine ⟨hcounts,fun hunready => ?_,?_,?_⟩
  · rw [show s.ready = true from hdue.ready] at hunready
    exact nomatch hunready
  · show 0 ≤ (s.output.acknowledge highest position).playedAudioMs
    rw [hplayed]
    exact h.played.trans hdue.forward
  · show (s.output.acknowledge highest position).playedAudioMs * (s.output.acknowledge highest position).byteRate ≤
      (s.output.acknowledge highest position).ackedBytes * 1000
    rw [hplayed,hrate,hbytes]
    exact hdue.covered

/-- A format that comes with the beginning of the call finds nothing played. -/
theorem Flows.format (h : Flows s sizes) (hfresh : s.ready = false) (audio : RealtimeAudioFormat)
    (hready : u.ready = true) (houtput : u.output = { s.output with audio }) : Flows u sizes := by
  have hcounts := h.counts
  refine ⟨?_,fun hunready => ?_,?_,?_⟩
  · rw [houtput]
    exact ⟨hcounts.sequence,hcounts.acked,hcounts.pending,hcounts.pendingBytes,hcounts.ackedBytes,hcounts.frames,hcounts.bytes⟩
  · rw [hready] at hunready
    exact nomatch hunready
  · rw [houtput]
    exact h.played
  · rw [houtput]
    show s.output.playedAudioMs * _ ≤ _
    rw [h.unready hfresh]
    omega

/-- What the moves of a stretch make of it: `more` has been allocated, by `_forward_events` alone. -/
structure Flowed (mover : Mover) (s : Controller) (sizes more : List ℕ) (u : Controller) : Prop where
  flows : Flows u (sizes ++ more)
  acked : u.output.acked ≤ sizes.length
  idle : ¬mover.feeds → more = []
  forward : s.output.playedAudioMs ≤ u.output.playedAudioMs

theorem Flows.flowed (h : Flows s sizes) : Flowed mover s sizes [] s := by
  refine ⟨?_,?_,fun _ => rfl,le_rfl⟩
  · rw [List.append_nil]
    exact h
  · rw [h.counts.sequence]
    exact h.counts.acked

variable {more : List ℕ}

theorem Flowed.same (h : Flowed mover s sizes more u) (hready : v.ready = u.ready) (houtput : v.output = u.output) :
    Flowed mover s sizes more v := by
  refine ⟨h.flows.same hready houtput,?_,h.idle,?_⟩ <;> rw [houtput]
  · exact h.acked
  · exact h.forward

theorem Flowed.output {output : OutputFlow} (h : Flowed mover s sizes more u) (hm : FlowMove mover u output) :
    ∃ more', Flowed mover s sizes more' { u with output } := by
  cases hm with
  | @acknowledged highest position hheard hdue =>
    have hidle : more = [] := by
      apply h.idle
      intro hfeeds
      cases mover with
      | run heard => exact hfeeds
      | events => exact hheard
    have hflows := h.flows.acknowledge hdue
    have hplayed : (u.output.acknowledge highest position).playedAudioMs = position := by
      unfold OutputFlow.acknowledge
      split <;> rfl
    refine ⟨more,hflows,?_,h.idle,?_⟩
    · have hlength := hflows.counts.sequence
      rw [hidle,List.append_nil] at hlength
      rw [hlength]
      exact hflows.counts.acked
    · show s.output.playedAudioMs ≤ (u.output.acknowledge highest position).playedAudioMs
      rw [hplayed]
      exact h.forward.trans hdue.forward
  | pushed hfeeds pcm hroom =>
    unfold hasCapacity at hroom
    rw [Bool.and_eq_true,decide_eq_true_eq,decide_eq_true_eq] at hroom
    refine ⟨more ++ [pcm.length],⟨?_,h.flows.unready,h.flows.played,h.flows.heard⟩,h.acked,fun hno => absurd hfeeds hno,h.forward⟩
    rw [← List.append_assoc]
    exact h.flows.counts.push hroom.1 hroom.2
  | sent hfeeds hsaid size =>
    exact ⟨more,⟨h.flows.counts.sent size,h.flows.unready,h.flows.played,h.flows.heard⟩,h.acked,h.idle,h.forward⟩

theorem Aside.flowed (hm : Aside mover u v) (h : Flowed mover s sizes more u) : ∃ more', Flowed mover s sizes more' v := by
  cases hm with
  | output hm => exact h.output hm
  | ready hfeeds hfree hfresh correlation inputAudio outputAudio =>
    exact ⟨more,h.flows.format hfresh outputAudio rfl rfl,h.acked,h.idle,h.forward⟩
  | _ => exact ⟨more,h.same rfl rfl⟩

theorem Move.flowed {leave : Prop} (hm : Move leave mover u v) (h : Flowed mover s sizes more u) :
    ∃ more', Flowed mover s sizes more' v := by
  cases hm with
  | aside hm => exact hm.flowed h
  | _ => exact ⟨more,h.same rfl rfl⟩

theorem flowed_moves {leave : Prop} (hm : ReflTransGen (Move leave mover) s v) (h : Flows s sizes) :
    ∃ more, Flowed mover s sizes more v := by
  induction hm with
  | refl => exact ⟨[],h.flowed⟩
  | tail _ hm ih =>
    obtain ⟨more,hu⟩ := ih
    exact hm.flowed hu

theorem Turn.output (h : Turn v u) : u.ready = v.ready ∧ u.output = v.output := by
  cases h with
  | fails f next hterminal hstep => cases hstep <;> exact ⟨rfl,rfl⟩
  | _ => exact ⟨rfl,rfl⟩

/-- What a step does to the flow control. -/
theorem step_flowed (ho : Ordered s) (h : Flows s sizes) (ha : step c s a = some s') :
    ∃ mover more, Flowed mover s sizes more s' := by
  obtain ⟨mover,v,u,_,hmoves,hturn,hsettled⟩ := step_turn ho ha
  obtain ⟨more,hv⟩ := flowed_moves hmoves h
  obtain ⟨hready,houtput⟩ := hturn.output
  exact ⟨mover,more,hv.same (hsettled.ready.trans hready) (hsettled.output.trans houtput)⟩

/-! The run of a call, with the sizes that it allocates. -/

/-- The sizes of the chunks that have got their numbers in between. -/
def allocated (s s' : Controller) : List ℕ :=
  (s'.output.pending.filter fun entry => s.output.sequence < entry.1).map Prod.snd

/-- A run, with the sizes of all chunks that have got a number in it. -/
inductive Allocates (c : LocalConfig) : Controller → List ℕ → Prop
  | init : Allocates c {} []
  | step {s s' : Controller} {sizes : List ℕ} {a : ChannelAction} (h : Allocates c s sizes) (ha : Controller.step c s a = some s') :
      Allocates c s' (sizes ++ allocated s s')

theorem Allocates.reachable (h : Allocates c s sizes) : Reachable c s := by
  induction h with
  | init => exact .of_init rfl
  | step _ ha ih => exact ih.tail trivial ha

theorem Flowed.allocated (h : Flows s sizes) (hu : Flowed mover s sizes more u) : allocated s u = more := by
  have hstart : u.output.acked + (sizes.length - u.output.acked) = s.output.sequence := by
    have hacked := hu.acked
    rw [← h.counts.sequence]
    omega
  have hdrop : (sizes ++ more).drop s.output.sequence = more := by
    rw [← h.counts.sequence,List.drop_left]
  unfold Controller.allocated
  rw [hu.flows.counts.pending,← hstart,filter_number_behind,number_snd,List.drop_drop,hstart,hdrop]

theorem Allocates.flows (h : Allocates c s sizes) : Flows s sizes := by
  induction h with
  | init => exact ⟨.init,fun _ => rfl,le_rfl,le_rfl⟩
  | step h ha ih =>
    obtain ⟨mover,more,hstep⟩ := step_flowed (reachable_ordered h.reachable) ih ha
    rw [Flowed.allocated ih hstep]
    exact hstep.flows

theorem reachable_allocates (h : Reachable c s) : ∃ sizes, Allocates c s sizes := by
  refine Transition.ReachableWith.invariant (I := fun s => ∃ sizes, Allocates c s sizes) (fun s hs => ?_) (fun s a s' hI _ ha => ?_) h
  · obtain rfl : s = {} := hs
    exact ⟨[],.init⟩
  · obtain ⟨sizes,hsizes⟩ := hI
    exact ⟨_,hsizes.step ha⟩

theorem refused_ite {p : Prop} [Decidable p] {m n : Prog RunPoint Unit} {e : LocalExn} (hm : m s = .raise e u → u = s)
    (hn : n s = .raise e u → u = s) : (if p then m else n) s = .raise e u → u = s := by
  split
  · exact hm
  · exact hn

/-- An acknowledgement that is refused leaves everything as it is. -/
theorem handleOutputAck_refused {value : Json.Object} {e : LocalExn} : handleOutputAck value s = .raise e u → u = s := by
  have hraise : ∀ message : String, (protocolError message : Prog RunPoint Unit) s = .raise e u → u = s :=
    fun _ h => (Outcome.raise.inj h).2.symm
  unfold handleOutputAck
  rw [get_bind]
  apply refused_ite (hraise _)
  apply refused_ite (hraise _)
  cases Json.asInt (Json.field value "highest_contiguous_sequence") with
  | none => exact hraise _
  | some highest =>
    apply refused_ite (hraise _)
    apply refused_ite (hraise _)
    generalize (if Json.hasField value "played_audio_ms" = true then Json.asInt (Json.field value "played_audio_ms")
      else some s.output.playedAudioMs) = position
    cases position with
    | none => exact hraise _
    | some position => exact refused_ite (hraise _) (fun h => nomatch h)

/-- The accounts of the flow control, with the sizes of all chunks that have got a number. -/
structure Accounts (c : LocalConfig) (s : Controller) (sizes : List ℕ) : Prop where
  acked : s.output.acked ≤ s.output.sequence
  window : s.output.pending.map Prod.fst = List.range' (s.output.acked + 1) (s.output.sequence - s.output.acked)
  pendingBytes : s.output.pendingBytes = (s.output.pending.map Prod.snd).sum
  frames : s.output.pending.length ≤ 64
  bytes : s.output.pendingBytes ≤ 1048576
  numbered : sizes.length = s.output.sequence
  total : s.output.ackedBytes + s.output.pendingBytes = sizes.sum
  played : 0 ≤ s.output.playedAudioMs
  forward : ∀ a s', step c s a = some s' → s.output.playedAudioMs ≤ s'.output.playedAudioMs
  heard : (s.output.playedAudioMs : ℚ) ≤ s.output.ackedBytes * 1000 / s.output.byteRate
  refused : ∀ value e u, handleOutputAck value s = .raise e u → u = s

/-- The window holds the chunks that are not acknowledged, in every state of every run, and the position never goes back
and never beyond the audio that has been acknowledged. -/
theorem output_accounted (h : Reachable c s) :
    (∃ sizes, Allocates c s sizes) ∧ ∀ sizes, Allocates c s sizes → Accounts c s sizes := by
  refine ⟨reachable_allocates h,fun sizes hsizes => ?_⟩
  have hflows := hsizes.flows
  have hcounts := hflows.counts
  have hrate : (0 : ℚ) < s.output.byteRate := by exact_mod_cast s.output.byteRate_pos
  refine ⟨hcounts.acked,?_,?_,hcounts.frames,hcounts.bytes,hcounts.sequence,?_,hflows.played,fun a s' ha => ?_,?_,
    fun _ _ _ => handleOutputAck_refused⟩
  · rw [hcounts.pending,number_fst,List.length_drop,hcounts.sequence]
  · rw [hcounts.pending,number_snd,hcounts.pendingBytes]
  · rw [hcounts.ackedBytes,hcounts.pendingBytes,← List.sum_append,List.take_append_drop]
  · obtain ⟨_,_,hstep⟩ := step_flowed (reachable_ordered h) hflows ha
    exact hstep.forward
  · rw [le_div_iff₀ hrate]
    exact_mod_cast hflows.heard

theorem output_accounted_spoken : (sampleCall {} spokenCall).output.sequence = 2 ∧ (sampleCall {} spokenCall).output.acked = 1 ∧
    ∃ sizes, Accounts {} (sampleCall {} spokenCall) sizes := by
  obtain ⟨⟨sizes,hsizes⟩,haccounts⟩ := output_accounted (c := {}) (s := sampleCall {} spokenCall)
    (sampleCall_reachable (by decide))
  exact ⟨by decide,by decide,sizes,haccounts sizes hsizes⟩

end Controller
end Local
end HarnessSdk
