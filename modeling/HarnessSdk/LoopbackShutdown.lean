import HarnessSdk.LoopbackCapacity

/-!
# Shutdown of the loopback host

`close` rejects the sockets that are pending, closes the channels that are registered and ends the handlers, and nothing
is admitted behind its claim. Only the tasks that it cancels are cancelled.
-/

namespace HarnessSdk
namespace Transports
/-- What is recorded of a socket. -/
def HostTrace.isGate : HostTrace → Bool
  | busy .. | socketClose .. => true
  | snapshot _ | closed _ => false

namespace HostLoop

open Transition

variable {cfg : HostConfig} {n m c : ℕ} {s s' u v : HostLoop} {request : HostRequest} {signal : Option HostSignal}
  {before : Option HostPoint} {state : HostState} {snapshot : Snapshot} {loop loop' : ChannelLoop ChannelUse HostTask}
  {action : ChannelAction ChannelUse HostTask}

/-- A task is cancelled only when `close` has cancelled it. -/
def CloseCancels (s : HostLoop) : HostAction → Prop
  | .resume n .cancelled => n ∈ s.cancelled
  | .channel c (.resume use .cancelled) => ∀ loop call, s.loops c = some loop → loop.calls use = some call →
    ∃ n ∈ s.cancelled, call.task = .call n
  | _ => True

def Suspended (s : HostLoop) (n : ℕ) (point : HostPoint) : Prop := ∃ request, s.calls n = some { request, state := .at point }

/-- The task of a call of a channel: an admitted one, the one that `close` gathers, or another one of the product. -/
def MayCall (s : HostLoop) (c : ℕ) (use : ChannelUse) (task : HostTask) : Prop :=
  (∃ n ∈ s.admitted, task = .call n) ∨ task = .closer c ∧ use = .gathered ∨ ∃ t, task = .other t

/-- The channels and the calls of their methods. -/
structure Looped (s : HostLoop) : Prop where
  admitted : ∀ c, c ∈ s.admitted ↔ (s.loops c).isSome
  reach : ∀ c loop, s.loops c = some loop →
    ReachableWith (ChannelLoop.step loopbackWebSocketRealtimeChannel) ChannelLoop.Uncancelled ChannelLoop.Init loop
  tasks : ∀ c loop use call, s.loops c = some loop → loop.calls use = some call → s.MayCall c use call.task
  uses : ∀ c loop k, s.loops c = some loop → loop.calls (.product k) ≠ none → (c,k) ∈ s.uses
  fresh : ∀ c loop, s.loops c = some loop → s.closers c ≠ some .started → loop.calls .gathered = none
  gathered : ∀ c loop, s.loops c = some loop → s.closers c = some .started →
    loop.Closes .gathered (.closer c) ∧ loop.Unraised .gathered

/-- The last call of `close` that `run` makes. -/
structure Finals (s : HostLoop) : Prop where
  handling : ∀ n, s.Suspended n .handling → ∃ loop, s.loops n = some loop ∧ loop.calls .final = none
  closing : ∀ n behind, s.Suspended n (.closing behind) → ∃ loop, s.loops n = some loop ∧ loop.Closes .final (.call n)

/-- A step of one channel. -/
structure Used (s v : HostLoop) (c : ℕ) (loop loop' : ChannelLoop ChannelUse HostTask)
    (action : ChannelAction ChannelUse HostTask) : Prop where
  hloop : s.loops c = some loop
  hstep : loop.step loopbackWebSocketRealtimeChannel action = some loop'
  uncancelled : loop.Uncancelled action
  loops : v.loops = Function.update s.loops c (some loop')
  admitted : v.admitted = s.admitted
  /-- Who makes a new call. -/
  new : ∀ use task, ((∃ code, action = .close use task code) ∨ action = .receive use task) → s.MayCall c use task
  uses : ∀ p ∈ s.uses, p ∈ v.uses
  product : ∀ k task, ((∃ code, action = .close (.product k) task code) ∨ action = .receive (.product k) task) → (c,k) ∈ v.uses
  gathered : action ≠ .resume .gathered .cancelled
  /-- The call that `close` gathers begins when its task starts. -/
  closers : v.closers = s.closers ∧ (∀ task, (∀ code, action ≠ .close .gathered task code) ∧ action ≠ .receive .gathered task) ∨
    v.closers = Function.update s.closers c (some .started) ∧ s.closers c = some .created ∧
      ∃ code, action = .close .gathered (.closer c) code

theorem Used.cases (h : Used s v c loop loop' action) {d : ℕ} {x : ChannelLoop ChannelUse HostTask}
    (hx : v.loops d = some x) : d = c ∧ x = loop' ∨ d ≠ c ∧ s.loops d = some x := by
  rw [h.loops] at hx
  by_cases hne : d = c
  · subst hne
    rw [Function.update_self] at hx
    exact .inl ⟨rfl,(Option.some.inj hx).symm⟩
  · rw [Function.update_of_ne hne] at hx
    exact .inr ⟨hne,hx⟩

/-- A call that is there behind the step has been there, or begins with it. -/
theorem Used.begins (h : Used s v c loop loop' action) {use : ChannelUse} (hnone : loop.calls use = none)
    (hsome : loop'.calls use ≠ none) : ∃ task, (∃ code, action = .close use task code) ∨ action = .receive use task := by
  obtain ⟨call,hcall⟩ := Option.ne_none_iff_exists'.mp hsome
  rcases ChannelLoop.step_task h.hstep hcall with ⟨old,hold,_⟩ | ⟨_,hbegins⟩
  · rw [hnone] at hold
    exact nomatch hold
  · exact ⟨call.task,hbegins⟩

theorem MayCall.of_admitted {use : ChannelUse} {task : HostTask} (h : s.MayCall c use task)
    (hsub : ∀ n ∈ s.admitted, n ∈ v.admitted) : v.MayCall c use task := by
  rcases h with ⟨n,hn,heq⟩ | hrest
  · exact .inl ⟨n,hsub n hn,heq⟩
  · exact .inr hrest

/-- The task that `close` gathers for a channel makes its first call. -/
theorem Looped.closes (hs : Looped s) (hloop : s.loops c = some loop) (hnew : s.closers c ≠ some .started)
    {code : Option ℕ} (h : loop.step loopbackWebSocketRealtimeChannel (.close .gathered (.closer c) code) = some loop') :
    loop'.Closes .gathered (.closer c) ∧ loop'.Unraised .gathered := by
  have hnone := hs.fresh c loop hloop hnew
  have howning := ChannelLoop.reachable_owning (hs.reach c loop hloop)
  have howner : loop.channel.closeOwner = some (.closer c) → loop.channel.closeDone := by
    intro howner
    rcases howning _ howner with hdone | ⟨use,point,hcall,_⟩
    · exact hdone
    · -- no other call is made by this task
      rcases hs.tasks c loop use _ hloop hcall with ⟨n,_,heq⟩ | ⟨_,rfl⟩ | ⟨t,heq⟩
      · exact nomatch heq
      · rw [hnone] at hcall
        exact nomatch hcall
      · exact nomatch heq
  simp only [ChannelLoop.step,if_pos hnone,Option.some.injEq] at h
  subst h
  exact ⟨ChannelLoop.closes_close code howner,ChannelLoop.unraised_close code⟩

theorem Looped.used (hs : Looped s) (h : Used s v c loop loop' action) : Looped v := by
  refine ⟨fun d => ?_,fun d x hx => ?_,fun d x use call hx hcall => ?_,fun d x k hx hcall => ?_,fun d x hx hnew => ?_,
    fun d x hx hstarted => ?_⟩
  · rw [h.admitted,hs.admitted d,h.loops]
    by_cases hne : d = c
    · subst hne
      simp [h.hloop]
    · rw [Function.update_of_ne hne]
  · rcases h.cases hx with ⟨rfl,rfl⟩ | ⟨_,hold⟩
    · exact (hs.reach d loop h.hloop).tail h.uncancelled h.hstep
    · exact hs.reach d x hold
  · have hsub : ∀ n ∈ s.admitted, n ∈ v.admitted := fun n hn => h.admitted ▸ hn
    rcases h.cases hx with ⟨rfl,rfl⟩ | ⟨_,hold⟩
    · rcases ChannelLoop.step_task h.hstep hcall with ⟨old,hold,htask⟩ | ⟨_,hbegins⟩
      · rw [← htask]
        exact (hs.tasks d loop use old h.hloop hold).of_admitted hsub
      · exact (h.new use call.task hbegins).of_admitted hsub
    · exact (hs.tasks d x use call hold hcall).of_admitted hsub
  · rcases h.cases hx with ⟨rfl,rfl⟩ | ⟨_,hold⟩
    · by_cases hnone : loop.calls (.product k) = none
      · obtain ⟨task,hbegins⟩ := h.begins hnone hcall
        exact h.product k task hbegins
      · exact h.uses _ (hs.uses d loop k h.hloop hnone)
    · exact h.uses _ (hs.uses d x k hold hcall)
  · rcases h.cases hx with ⟨rfl,rfl⟩ | ⟨hne,hold⟩
    · rcases h.closers with ⟨hclosers,hnot⟩ | ⟨hclosers,_⟩
      · rw [hclosers] at hnew
        have hnone := hs.fresh d loop h.hloop hnew
        by_contra hsome
        obtain ⟨task,⟨code,hbegins⟩ | hbegins⟩ := h.begins hnone hsome
        · exact (hnot task).1 code hbegins
        · exact (hnot task).2 hbegins
      · rw [hclosers,Function.update_self] at hnew
        exact absurd rfl hnew
    · refine hs.fresh d x hold ?_
      rcases h.closers with ⟨hclosers,_⟩ | ⟨hclosers,_⟩
      · rwa [hclosers] at hnew
      · rwa [hclosers,Function.update_of_ne hne] at hnew
  · rcases h.cases hx with ⟨rfl,rfl⟩ | ⟨hne,hold⟩
    · rcases h.closers with ⟨hclosers,_⟩ | ⟨_,hcreated,code,rfl⟩
      · rw [hclosers] at hstarted
        obtain ⟨hcloses,hunraised⟩ := hs.gathered d loop h.hloop hstarted
        exact ⟨ChannelLoop.closes_step h.hstep hcloses,
          ChannelLoop.unraised_step h.hstep (fun _ => rfl) hcloses hunraised h.gathered⟩
      · exact hs.closes h.hloop (by simp [hcreated]) h.hstep
    · refine hs.gathered d x hold ?_
      rcases h.closers with ⟨hclosers,_⟩ | ⟨hclosers,_⟩
      · rwa [hclosers] at hstarted
      · rwa [hclosers,Function.update_of_ne hne] at hstarted

/-- A change that leaves the channels as they are. -/
theorem Looped.keep (hs : Looped s) (hloops : v.loops = s.loops) (hadmitted : v.admitted = s.admitted)
    (huses : v.uses = s.uses) (hclosers : ∀ d, v.closers d = some .started ↔ s.closers d = some .started) : Looped v where
  admitted d := by rw [hadmitted,hloops,hs.admitted d]
  reach d x hx := hs.reach d x (hloops ▸ hx)
  tasks d x use call hx hcall :=
    (hs.tasks d x use call (hloops ▸ hx) hcall).of_admitted fun n hn => hadmitted ▸ hn
  uses d x k hx hcall := huses ▸ hs.uses d x k (hloops ▸ hx) hcall
  fresh d x hx hnew := hs.fresh d x (hloops ▸ hx) fun hstarted => hnew ((hclosers d).mpr hstarted)
  gathered d x hx hstarted := hs.gathered d x (hloops ▸ hx) ((hclosers d).mp hstarted)

/-- A change that keeps what is known of the last calls. -/
theorem Finals.keep (hs : Finals s) (hloops : ∀ c loop, s.loops c = some loop → ∃ loop', v.loops c = some loop' ∧
    (loop.calls .final = none → loop'.calls .final = none) ∧
      ∀ task, loop.Closes .final task → loop'.Closes .final task)
    (hhandling : ∀ m, v.Suspended m .handling → s.Suspended m .handling)
    (hclosing : ∀ m behind, v.Suspended m (.closing behind) → s.Suspended m (.closing behind)) : Finals v where
  handling m hm := by
    obtain ⟨loop,hloop,hnone⟩ := hs.handling m (hhandling m hm)
    obtain ⟨loop',hloop',hkept,_⟩ := hloops m loop hloop
    exact ⟨loop',hloop',hkept hnone⟩
  closing m behind hm := by
    obtain ⟨loop,hloop,hcloses⟩ := hs.closing m behind (hclosing m behind hm)
    obtain ⟨loop',hloop',_,hkept⟩ := hloops m loop hloop
    exact ⟨loop',hloop',hkept _ hcloses⟩

theorem loops_same (hloops : v.loops = s.loops) (c : ℕ) (loop : ChannelLoop ChannelUse HostTask)
    (hloop : s.loops c = some loop) : ∃ loop', v.loops c = some loop' ∧
      (loop.calls .final = none → loop'.calls .final = none) ∧ ∀ task, loop.Closes .final task → loop'.Closes .final task :=
  ⟨loop,hloops ▸ hloop,id,fun _ => id⟩

theorem Used.loops_final (h : Used s v c loop loop' action)
    (hfinal : ∀ task, (∀ code, action ≠ .close .final task code) ∧ action ≠ .receive .final task) (d : ℕ)
    (x : ChannelLoop ChannelUse HostTask) (hx : s.loops d = some x) : ∃ x', v.loops d = some x' ∧
      (x.calls .final = none → x'.calls .final = none) ∧ ∀ task, x.Closes .final task → x'.Closes .final task := by
  by_cases hne : d = c
  · subst hne
    obtain rfl : x = loop := Option.some.inj (hx.symm.trans h.hloop)
    refine ⟨loop',by rw [h.loops,Function.update_self],fun hnone => ?_,fun task => ChannelLoop.closes_step h.hstep⟩
    by_contra hsome
    obtain ⟨task,⟨code,hbegins⟩ | hbegins⟩ := h.begins hnone hsome
    · exact (hfinal task).1 code hbegins
    · exact (hfinal task).2 hbegins
  · exact ⟨x,by rw [h.loops,Function.update_of_ne hne,hx],id,fun _ => id⟩

theorem suspended_conclude (hcalls : u.calls = s.calls) (m : ℕ) (point : HostPoint) :
    (u.conclude n { request, state }).Suspended m point ↔
      m = n ∧ state = .at point ∨ m ≠ n ∧ s.Suspended m point := by
  simp only [Suspended,calls_conclude hcalls]
  by_cases hne : m = n
  · simp [hne]
  · simp [hne]

theorem suspended_of_conclude (hcalls : u.calls = s.calls) {m : ℕ} {point : HostPoint} (hstate : state ≠ .at point)
    (hm : (u.conclude n { request, state }).Suspended m point) : s.Suspended m point := by
  rcases (suspended_conclude hcalls m point).mp hm with ⟨_,heq⟩ | ⟨_,hold⟩
  · exact absurd heq hstate
  · exact hold

def channelDone (s : HostLoop) (c : ℕ) : Bool := (s.loops c).any fun loop => loop.channel.closeDone

theorem channelDone_of {c : ℕ} (hloop : s.loops c = some loop) (hdone : loop.channel.closeDone) : s.channelDone c := by
  simpa [channelDone,hloop] using hdone

/-- A teardown stays done. -/
theorem Used.done (h : Used s v c loop loop' action) {d : ℕ} (hd : s.channelDone d) : v.channelDone d := by
  by_cases hne : d = c
  · subst hne
    rw [channelDone,h.hloop,Option.any_some] at hd
    rw [channelDone,h.loops,Function.update_self,Option.any_some]
    exact ChannelLoop.done_step h.hstep hd
  · rw [channelDone,h.loops,Function.update_of_ne hne]
    exact hd

theorem useState_of {use : ChannelUse} (hloop : s.loops c = some loop) :
    s.useState c use = (loop.calls use).map ChannelCall.state := by simp [useState,hloop]

/-- A call of `close` that has returned finds the teardown done. -/
theorem done_of_returned {use : ChannelUse} {task : HostTask} (hloop : s.loops c = some loop)
    (hcloses : loop.Closes use task) (huse : s.useState c use = some .returned) : s.channelDone c := by
  rw [useState_of hloop] at huse
  cases hcloses with
  | «at» point hcall =>
    rw [hcall] at huse
    exact nomatch huse
  | returned hcall hdone => exact channelDone_of hloop hdone
  | raised e hcall =>
    rw [hcall] at huse
    exact nomatch huse

/-- A task that uses a channel is cancelled only when the teardown of every channel is done. -/
def Safe (s : HostLoop) : Prop := ∀ n ∈ s.cancelled, n ∈ s.admitted → ∀ c ∈ s.admitted, s.channelDone c

theorem Looped.mem (hs : Looped s) (hloop : s.loops c = some loop) : c ∈ s.admitted := (hs.admitted c).mpr (by simp [hloop])

/-- A closing task of a channel is not cancelled while it waits for the session. -/
theorem Looped.uncancelled (hs : Looped s) (hsafe : Safe s) (hloop : s.loops c = some loop)
    (ha : CloseCancels s (.channel c action)) : loop.Uncancelled action := by
  cases action with
  | resume use signal =>
    cases signal with
    | cancelled =>
      intro code behind hpoint
      obtain ⟨task,hcall⟩ := ChannelLoop.pointOf_eq hpoint
      obtain ⟨n,hn,htask⟩ := ha loop _ hloop hcall
      obtain rfl : task = .call n := htask
      have hadmitted : n ∈ s.admitted := by
        rcases hs.tasks c loop use _ hloop hcall with ⟨k,hk,heq⟩ | ⟨heq,_⟩ | ⟨t,heq⟩
        · obtain rfl := HostTask.call.inj heq
          exact hk
        · exact nomatch heq
        · exact nomatch heq
      have hdone := hsafe n hn hadmitted c (hs.mem hloop)
      simp only [channelDone,hloop,Option.any_some] at hdone
      have hclosing : loop.closing use = true := ChannelLoop.closing_of_point hpoint
      cases ChannelLoop.reachable_phase (hs.reach c loop hloop) with
      | fresh _ hundone | session _ _ _ _ _ hundone | transport _ _ _ hundone =>
        rw [hundone] at hdone
        exact nomatch hdone
      | done _ _ hidle =>
        rw [hidle use] at hclosing
        exact nomatch hclosing
    | _ => trivial
  | _ => trivial

/-- The call that `close` gathers is made by the task that it gathers. -/
theorem Looped.gathered_task (hs : Looped s) (hloop : s.loops c = some loop) {call : ChannelCall HostTask}
    (hcall : loop.calls .gathered = some call) : call.task = .closer c := by
  have hstarted : s.closers c = some .started := by
    by_contra hnew
    rw [hs.fresh c loop hloop hnew] at hcall
    exact nomatch hcall
  cases (hs.gathered c loop hloop hstarted).1 with
  | «at» _ h | returned h | raised _ h =>
    rw [hcall] at h
    rw [Option.some.inj h]

/-- The task of a new call of the product. -/
theorem mayCall_of_mayUse (hs : Looped s) (hfinals : Finals s) {task : HostTask} (h : s.mayUse task) (c : ℕ)
    (use : ChannelUse) : s.MayCall c use task := by
  cases task with
  | call n =>
    simp only [mayUse,Option.any_eq_true] at h
    obtain ⟨⟨request,state⟩,hcall,hstate⟩ := h
    obtain rfl : state = .at .handling := of_decide_eq_true hstate
    obtain ⟨loop,hloop,_⟩ := hfinals.handling n ⟨request,hcall⟩
    exact .inl ⟨n,hs.mem hloop,rfl⟩
  | closer c => exact nomatch h
  | other t => exact .inr (.inr ⟨t,rfl⟩)

/-- What a step keeps of the channels. -/
structure Kept (s v : HostLoop) : Prop where
  looped : Looped v
  final : ∀ c loop, s.loops c = some loop → ∃ loop', v.loops c = some loop' ∧
    (loop.calls .final = none → loop'.calls .final = none) ∧ ∀ task, loop.Closes .final task → loop'.Closes .final task
  done : ∀ c, s.channelDone c → v.channelDone c

theorem Used.kept (h : Used s v c loop loop' action) (hs : Looped s)
    (hfinal : ∀ task, (∀ code, action ≠ .close .final task code) ∧ action ≠ .receive .final task) : Kept s v :=
  ⟨hs.used h,h.loops_final hfinal,fun _ => h.done⟩

theorem Looped.kept (hs : Looped s) (hloops : v.loops = s.loops) (hadmitted : v.admitted = s.admitted)
    (huses : v.uses = s.uses) (hclosers : ∀ d, v.closers d = some .started ↔ s.closers d = some .started) : Kept s v :=
  ⟨hs.keep hloops hadmitted huses hclosers,loops_same hloops,fun c hc => by simpa [channelDone,hloops] using hc⟩

theorem kept_other {a : HostAction} (h : Other s a u) (hs : Looped s) (hfinals : Finals s) (hsafe : Safe s)
    (ha : CloseCancels s a) : Kept s u := by
  cases h with
  | used c k task loop loop' action hloop haction htask hstep =>
    have hused : Used s { s.setLoop c loop' with uses := (c,k) :: s.uses } c loop loop' action := by
      refine ⟨hloop,hstep,hs.uncancelled hsafe hloop ha,rfl,rfl,fun use task' hbegins => ?_,fun p => List.mem_cons_of_mem _,
        fun k' task' hbegins => ?_,?_,.inl ⟨rfl,fun task' => ?_⟩⟩
      · have hmay := mayCall_of_mayUse hs hfinals htask c use
        rcases haction with ⟨code,rfl⟩ | rfl <;> rcases hbegins with ⟨code',heq⟩ | heq <;> cases heq <;> exact hmay
      · rcases haction with ⟨code,rfl⟩ | rfl <;> rcases hbegins with ⟨code',heq⟩ | heq <;> cases heq <;>
          exact List.mem_cons_self
      · rcases haction with ⟨code,rfl⟩ | rfl <;> simp
      · rcases haction with ⟨code,rfl⟩ | rfl <;> exact ⟨(by simp),(by simp)⟩
    exact hused.kept hs fun task' => by rcases haction with ⟨code,rfl⟩ | rfl <;> exact ⟨(by simp),(by simp)⟩
  | goesOn c loop loop' action hloop haction hstep =>
    have hbegins : ∀ use task, (∀ code, action ≠ .close use task code) ∧ action ≠ .receive use task := by
      intro use task
      rcases haction with ⟨session,rfl⟩ | ⟨use',signal,rfl⟩ <;> exact ⟨(by simp),(by simp)⟩
    have hnot : ∀ {p : Prop} {use task}, ((∃ code, action = .close use task code) ∨ action = .receive use task) → p := by
      rintro p use task (⟨code,heq⟩ | heq)
      · exact absurd heq ((hbegins use task).1 code)
      · exact absurd heq (hbegins use task).2
    have hused : Used s (s.setLoop c loop') c loop loop' action := by
      refine ⟨hloop,hstep,hs.uncancelled hsafe hloop ha,rfl,rfl,fun _ _ => hnot,fun p => id,fun _ _ => hnot,?_,
        .inl ⟨rfl,hbegins .gathered⟩⟩
      rintro rfl
      -- the task that `close` gathers is no call of the host
      have hcall : ∃ call, loop.calls .gathered = some call := by
        cases hcall : loop.calls .gathered with
        | none => simp [ChannelLoop.step,hcall] at hstep
        | some call => exact ⟨call,rfl⟩
      obtain ⟨call,hcall⟩ := hcall
      obtain ⟨n,_,htask⟩ := ha loop call hloop hcall
      rw [hs.gathered_task hloop hcall] at htask
      cases htask
    exact hused.kept hs (hbegins .final)
  | rejecting m | rejected m => exact hs.kept rfl rfl rfl fun _ => Iff.rfl
  | closing c loop loop' hcreated hloop hstep =>
    have hused : Used s { s.setLoop c loop' with closers := Function.update s.closers c (some .started) } c loop loop'
        (.close .gathered (.closer c) (some 1000)) := by
      refine ⟨hloop,hstep,trivial,rfl,rfl,fun use task hbegins => ?_,fun p => id,fun k task hbegins => ?_,(by simp),
        .inr ⟨rfl,hcreated,_,rfl⟩⟩
      · rcases hbegins with ⟨code,heq⟩ | heq <;> cases heq
        exact .inr (.inl ⟨rfl,rfl⟩)
      · rcases hbegins with ⟨code,heq⟩ | heq <;> cases heq
    exact hused.kept hs fun task => ⟨(by simp),(by simp)⟩

/-- A handler that has come to its end is not inside a teardown of its own. -/
theorem not_inside (hs : Looped s) (hloop : s.loops n = some loop) (hnone : loop.calls .final = none)
    (hfree : s.isFree (.call n)) (howner : loop.channel.closeOwner = some (.call n)) : loop.channel.closeDone := by
  rcases ChannelLoop.reachable_owning (hs.reach n loop hloop) _ howner with hdone | ⟨use,point,hcall,_⟩
  · exact hdone
  · cases use with
    | final =>
      rw [hnone] at hcall
      exact nomatch hcall
    | gathered => exact nomatch hs.gathered_task hloop hcall
    | product k =>
      have huse := hs.uses n loop k hloop (by simp [hcall])
      have hover := List.all_eq_true.mp hfree _ huse
      simp [useOver,useState,hloop,hcall] at hover

theorem used_handled (hs : Looped s) (hfinals : Finals s) (hpoint : s.Suspended n .handling) (hfree : s.isFree (.call n)) :
    ∃ loop loop', Used s (s.closeFinal n 1000) n loop loop' (.close .final (.call n) (some 1000)) ∧
      loop'.Closes .final (.call n) := by
  obtain ⟨loop,hloop,hnone⟩ := hfinals.handling n hpoint
  have heq : s.closeFinal n 1000 = s.setLoop n
      (ChannelLoop.settle .final (.call n) (ChannelLoop.close .final (.call n) (some 1000) none) loop) := by
    simp only [closeFinal,hloop]
  rw [heq]
  refine ⟨loop,_,⟨hloop,by simp only [ChannelLoop.step,if_pos hnone],trivial,rfl,rfl,fun use task hbegins => ?_,fun p => id,
    fun k task hbegins => ?_,(by simp),.inl ⟨rfl,fun task => ⟨(by simp),(by simp)⟩⟩⟩,
    ChannelLoop.closes_close _ (not_inside hs hloop hnone hfree)⟩
  · rcases hbegins with ⟨code,heq⟩ | heq <;> cases heq
    exact .inl ⟨n,hs.mem hloop,rfl⟩
  · rcases hbegins with ⟨code,heq⟩ | heq <;> cases heq

/-- A new channel. -/
theorem looped_admitted (hs : Looped s) (hnew : n ∉ s.admitted) (hclosers : s.closers n = none)
    (hloops : u.loops = (s.addChannel cfg n).loops) (hadmitted : u.admitted = n :: s.admitted) (huses : u.uses = s.uses)
    (hsame : u.closers = s.closers) : Looped u := by
  have hself : u.loops n = some { channel := { maxFrameBytes := cfg.maxFrameBytes } } := by
    rw [hloops]
    exact Function.update_self ..
  have hother : ∀ c, c ≠ n → u.loops c = s.loops c := by
    intro c hne
    rw [hloops]
    exact Function.update_of_ne hne _ _
  have hinit : ChannelLoop.Init ({ channel := { maxFrameBytes := cfg.maxFrameBytes } } : ChannelLoop ChannelUse HostTask) :=
    ⟨cfg.maxFrameBytes,cfg.valid.2.2.1,rfl⟩
  have hcases : ∀ {c loop}, u.loops c = some loop → c = n ∧ loop = { channel := { maxFrameBytes := cfg.maxFrameBytes } } ∨
      s.loops c = some loop := by
    intro c loop hloop
    by_cases hne : c = n
    · subst hne
      rw [hself] at hloop
      exact .inl ⟨rfl,(Option.some.inj hloop).symm⟩
    · rw [hother c hne] at hloop
      exact .inr hloop
  refine ⟨fun c => ?_,fun c loop hloop => ?_,fun c loop use call hloop hcall => ?_,fun c loop k hloop hcall => ?_,
    fun c loop hloop hfresh => ?_,fun c loop hloop hstarted => ?_⟩
  · rw [hadmitted,List.mem_cons]
    by_cases hne : c = n
    · subst hne
      simp [hself]
    · rw [hother c hne,← hs.admitted c]
      exact or_iff_right hne
  · rcases hcases hloop with ⟨rfl,rfl⟩ | hold
    · exact .of_init hinit
    · exact hs.reach c loop hold
  · rcases hcases hloop with ⟨rfl,rfl⟩ | hold
    · exact nomatch hcall
    · refine (hs.tasks c loop use call hold hcall).of_admitted fun m hm => ?_
      rw [hadmitted]
      exact List.mem_cons_of_mem _ hm
  · rcases hcases hloop with ⟨rfl,rfl⟩ | hold
    · exact absurd rfl hcall
    · rw [huses]
      exact hs.uses c loop k hold hcall
  · rcases hcases hloop with ⟨rfl,rfl⟩ | hold
    · rfl
    · exact hs.fresh c loop hold (hsame ▸ hfresh)
  · rw [hsame] at hstarted
    rcases hcases hloop with ⟨rfl,rfl⟩ | hold
    · rw [hclosers] at hstarted
      exact nomatch hstarted
    · exact hs.gathered c loop hold hstarted

theorem CloseEnd.channels (h : CloseEnd n snapshot v u state) : u.loops = v.loops ∧ u.admitted = v.admitted ∧
    u.uses = v.uses ∧ u.closers = v.closers ∧ ∀ point, state = .at point → point.isStage := by
  cases h with
  | awaiting =>
    refine ⟨rfl,rfl,rfl,rfl,fun point hpoint => ?_⟩
    obtain rfl := HostState.at.inj hpoint
    rfl
  | finished => exact ⟨rfl,rfl,rfl,rfl,nofun⟩

theorem CloseRest.channels_same (h : CloseRest n snapshot v u state) : u.loops = v.loops ∧ u.admitted = v.admitted ∧
    u.uses = v.uses ∧ (u.closers = v.closers ∨ u.closers = gather v.closers snapshot.channels) ∧
      ∀ point, state = .at point → point.isStage := by
  cases h with
  | channels =>
    refine ⟨rfl,rfl,rfl,.inr rfl,fun point hpoint => ?_⟩
    obtain rfl := HostState.at.inj hpoint
    rfl
  | rest _ h =>
    obtain ⟨hloops,hadmitted,huses,hclosers,hstate⟩ := h.channels
    exact ⟨hloops,hadmitted,huses,.inl hclosers,hstate⟩

/-- No gathered task has started before the gathering. -/
theorem gather_started (hnone : ∀ c, s.closers c = none)
    (hclosers : u.closers = s.closers ∨ u.closers = gather s.closers snapshot.channels) (d : ℕ) :
    u.closers d = some .started ↔ s.closers d = some .started := by
  rcases hclosers with heq | heq
  · rw [heq]
  · rw [heq,gather,hnone d]
    split <;> simp

/-- The channels behind a turn. -/
theorem channels_turn {a : HostAction} (hstarts : Starts s n request a signal before)
    (h : Turn cfg s n request signal before u state) (hs : Looped s) (hfinals : Finals s)
    (hcounted : s.host.closed = false → Counted cfg s)
    (hclosers : (s.host.closed = false ∨ ∃ snapshot, before = some (.rejectingPending snapshot)) → ∀ c, s.closers c = none) :
    Looped (u.conclude n { request, state }) ∧ Finals (u.conclude n { request, state }) ∧
      ∀ c, s.channelDone c → u.channelDone c := by
  have hkept : ∀ {v : HostLoop} {state : HostState}, v.loops = s.loops → v.admitted = s.admitted → v.uses = s.uses →
      (∀ d, v.closers d = some .started ↔ s.closers d = some .started) → v.calls = s.calls → state ≠ .at .handling →
      (∀ behind, state ≠ .at (.closing behind)) → Looped (v.conclude n { request, state }) ∧
        Finals (v.conclude n { request, state }) ∧ ∀ c, s.channelDone c → v.channelDone c := by
    intro v state hloops hadmitted huses hstarted hcalls hhandling hclosing
    have hlooped : Looped (v.conclude n { request, state }) := hs.keep hloops hadmitted huses hstarted
    refine ⟨hlooped,hfinals.keep (loops_same hloops) (fun m => suspended_of_conclude hcalls hhandling)
      (fun m behind => suspended_of_conclude hcalls (hclosing behind)),fun c hc => ?_⟩
    simpa [channelDone,hloops] using hc
  have hstage : ∀ {v : HostLoop} {state : HostState}, v.loops = s.loops → v.admitted = s.admitted → v.uses = s.uses →
      (∀ d, v.closers d = some .started ↔ s.closers d = some .started) → v.calls = s.calls →
      (∀ point, state = .at point → point.isStage) → Looped (v.conclude n { request, state }) ∧
        Finals (v.conclude n { request, state }) ∧ ∀ c, s.channelDone c → v.channelDone c := by
    intro v state hloops hadmitted huses hstarted hcalls hstate
    refine hkept hloops hadmitted huses hstarted hcalls (fun heq => ?_) fun behind heq => ?_
    · exact nomatch hstate _ heq
    · exact nomatch hstate _ heq
  have hnew : ∀ {v : HostLoop} {state : HostState}, s.host.closed = false → s.Suspended n .receiving →
      v.loops = (s.addChannel cfg n).loops → v.admitted = n :: s.admitted → v.uses = s.uses → v.closers = s.closers →
      v.calls = s.calls → (∀ behind, state ≠ .at (.closing behind)) → Looped (v.conclude n { request, state }) ∧
        Finals (v.conclude n { request, state }) ∧ ∀ c, s.channelDone c → v.channelDone c := by
    intro v state hopen hpoint hloops hadmitted huses hsame hcalls hclosing
    have hfresh : n ∉ s.admitted := by
      intro hin
      obtain ⟨request',hcall⟩ := hpoint
      have hdone := ((hcounted hopen).begun n hin).2
      rw [handshaking_at hcall] at hdone
      exact nomatch hdone
    have hunknown : s.loops n = none := by
      rw [← Option.not_isSome_iff_eq_none,← hs.admitted n]
      exact hfresh
    have hold : ∀ c loop, s.loops c = some loop → v.loops c = some loop := by
      intro c loop hloop
      have hne : c ≠ n := by
        rintro rfl
        rw [hunknown] at hloop
        exact nomatch hloop
      rw [hloops]
      exact (Function.update_of_ne hne _ _).trans hloop
    have hlooped : Looped v := looped_admitted hs hfresh (hclosers (.inl hopen) n) hloops hadmitted huses hsame
    refine ⟨hlooped.keep rfl rfl rfl fun _ => Iff.rfl,⟨fun m hm => ?_,fun m behind hm => ?_⟩,fun c hc => ?_⟩
    · rcases (suspended_conclude hcalls m _).mp hm with ⟨rfl,_⟩ | ⟨_,hm⟩
      · exact ⟨{ channel := { maxFrameBytes := cfg.maxFrameBytes } },hloops ▸ Function.update_self ..,rfl⟩
      · obtain ⟨loop,hloop,hnone⟩ := hfinals.handling m hm
        exact ⟨loop,hold m loop hloop,hnone⟩
    · obtain ⟨loop,hloop,hcloses⟩ := hfinals.closing m behind (suspended_of_conclude hcalls (hclosing behind) hm)
      exact ⟨loop,hold m loop hloop,hcloses⟩
    · obtain ⟨loop,hloop,hdone⟩ := (Option.any_eq_true _ _).mp hc
      exact channelDone_of (hold c loop hloop) hdone
  cases h with
  | accepted hopen => exact hnew hopen ⟨request,hstarts.point rfl⟩ rfl rfl rfl rfl rfl nofun
  | running hopen => exact hnew hopen ⟨request,hstarts.point rfl⟩ rfl rfl rfl rfl rfl nofun
  | handled behind hfree =>
    obtain ⟨loop,loop',hused,hcloses⟩ := used_handled hs hfinals ⟨request,hstarts.point rfl⟩ hfree
    have hlooped := hs.used hused
    have hcalls : (s.closeFinal n 1000).calls = s.calls := by rw [closeFinal_eq]
    have hother : ∀ m, m ≠ n → (s.closeFinal n 1000).loops m = s.loops m := by
      intro m hne
      rw [hused.loops]
      exact Function.update_of_ne hne _ _
    refine ⟨hlooped.keep rfl rfl rfl fun _ => Iff.rfl,⟨fun m hm => ?_,fun m behind' hm => ?_⟩,fun c => hused.done⟩
    · rcases (suspended_conclude hcalls m _).mp hm with ⟨_,heq⟩ | ⟨hne,hm⟩
      · exact nomatch heq
      · obtain ⟨loop,hloop,hnone⟩ := hfinals.handling m hm
        exact ⟨loop,(hother m hne).trans hloop,hnone⟩
    · rcases (suspended_conclude hcalls m _).mp hm with ⟨rfl,_⟩ | ⟨hne,hm⟩
      · exact ⟨loop',hused.loops ▸ Function.update_self ..,hcloses⟩
      · obtain ⟨loop,hloop,hcloses⟩ := hfinals.closing m behind' hm
        exact ⟨loop,(hother m hne).trans hloop,hcloses⟩
  | discarded behind _ hstate => exact hkept rfl rfl rfl (fun _ => Iff.rfl) rfl (hstate _) fun _ => hstate _
  | rejecting =>
    refine hstage rfl rfl rfl (fun _ => Iff.rfl) rfl fun point hpoint => ?_
    obtain rfl := HostState.at.inj hpoint
    rfl
  | nothingPending hopen _ h =>
    obtain ⟨hloops,hadmitted,huses,hgather,hstate⟩ := h.channels_same
    exact hstage hloops hadmitted huses (gather_started (hclosers (.inl hopen)) hgather) h.calls hstate
  | pendingRejected snapshot _ h =>
    obtain ⟨hloops,hadmitted,huses,hgather,hstate⟩ := h.channels_same
    exact hstage hloops hadmitted huses (gather_started (hclosers (.inr ⟨snapshot,rfl⟩)) hgather) h.calls hstate
  | channelsClosed _ _ h =>
    obtain ⟨hloops,hadmitted,huses,hsame,hstate⟩ := h.channels
    exact hstage hloops hadmitted huses (fun _ => by rw [hsame]) h.calls hstate
  | _ => exact hkept rfl rfl rfl (fun _ => Iff.rfl) rfl nofun nofun

/-! The stages of the shutdown. -/

/-- The host before the claim of a shutdown. -/
structure Opened (s : HostLoop) : Prop where
  hopen : s.host.closed = false
  undone : s.host.closeDone = false
  cancelled : s.cancelled = []
  rejections : ∀ n, s.rejections n = none
  closers : ∀ c, s.closers c = none
  snapshot : ∀ found, .snapshot found ∉ s.log
  returned : ∀ k, .closed k ∉ s.log
  handlers : ∀ k, s.Suspended k .handling → k ∈ s.host.handlerTasks
  begun : ∀ k ∈ s.host.handlerTasks, s.calls k ≠ none
  released : ∀ c ∈ s.admitted, c ∈ s.host.channels ∨ s.channelDone c

/-- The host behind the claim of `m`, which has found the snapshot. -/
structure Claimed (s : HostLoop) (m : ℕ) (snapshot : Snapshot) : Prop where
  closed : s.host.closed
  owner : s.host.closeOwner = some m
  found : ∀ found, .snapshot found ∈ s.log → found = snapshot
  returned : ∀ k, .closed k ∈ s.log → s.host.closeDone
  pending : ∀ k, s.handshaking k → k ∈ snapshot.pending
  handlers : ∀ k, s.Suspended k .handling → k ∈ snapshot.handlers
  outside : m ∉ snapshot.handlers
  released : ∀ c ∈ s.admitted, c ∈ snapshot.channels ∨ s.channelDone c
  rejected : ∀ k gathered, s.rejections k = some gathered → gathered = .created ∨ ∃ code, .socketClose k code ∈ s.log
  safe : ∀ k ∈ s.cancelled, k ≠ m ∧ (k ∈ s.admitted → ∀ c ∈ s.admitted, s.channelDone c)
  stage : ∀ k point, s.Suspended k point → point.isStage → k = m ∨ point = .waiting

def Rejected (s : HostLoop) (snapshot : Snapshot) : Prop := ∀ k ∈ snapshot.pending, ∃ code, .socketClose k code ∈ s.log

/-- How far the owner of the shutdown has come. -/
inductive Progress (s : HostLoop) (m : ℕ) (snapshot : Snapshot) : Prop
  | rejecting (hcall : s.Suspended m (.rejectingPending snapshot)) (hundone : s.host.closeDone = false)
      (hclosers : ∀ c, s.closers c = none)
  | closing (hcall : s.Suspended m (.closingChannels snapshot)) (hundone : s.host.closeDone = false)
      (hrejected : s.Rejected snapshot)
  | awaiting (tasks : List ℕ) (hcall : s.Suspended m (.awaitingTasks tasks)) (hundone : s.host.closeDone = false)
      (hrejected : s.Rejected snapshot) (hchannels : ∀ c ∈ snapshot.channels, s.channelDone c)
      (htasks : ∀ k ∈ snapshot.handlers, k ∈ tasks ∨ s.isOver k)
  | done (hcall : s.isOver m) (hrejected : s.Rejected snapshot) (hchannels : ∀ c ∈ snapshot.channels, s.channelDone c)
      (hhandlers : ∀ k ∈ snapshot.handlers, s.isOver k)

theorem isOver_conclude (hcalls : u.calls = s.calls) (m : ℕ) : (u.conclude n { request, state }).isOver m =
    if m = n then HostCall.isOver { request, state } else s.isOver m := by
  simp only [isOver,calls_conclude hcalls]
  split <;> rfl

theorem not_over {point : HostPoint} (h : s.Suspended n point) : s.isOver n = false := by
  obtain ⟨request,hcall⟩ := h
  simp [isOver,hcall,HostCall.isOver]

/-- A call that goes on has not been over. -/
theorem Starts.not_over {a : HostAction} (h : Starts s n request a signal before) : s.isOver n = false := by
  cases h with
  | begin hnone => simp [isOver,hnone]
  | resume _ _ hcall => exact HostLoop.not_over ⟨request,hcall⟩

/-- A step aside from the owner. -/
theorem Progress.keep (h : Progress s m snapshot) (hm : v.calls m = s.calls m) (hundone : v.host.closeDone = s.host.closeDone)
    (hclosers : (∀ c, s.closers c = none) → ∀ c, v.closers c = none) (hlog : ∀ t ∈ s.log, t ∈ v.log)
    (hdone : ∀ c, s.channelDone c → v.channelDone c) (hover : ∀ k, s.isOver k → v.isOver k) : Progress v m snapshot := by
  have hpoint : ∀ {point}, s.Suspended m point → v.Suspended m point := by
    rintro point ⟨request,hcall⟩
    exact ⟨request,hm.trans hcall⟩
  have hrejected : s.Rejected snapshot → v.Rejected snapshot := by
    intro hs k hk
    obtain ⟨code,hcode⟩ := hs k hk
    exact ⟨code,hlog _ hcode⟩
  cases h with
  | rejecting hcall hold hnone => exact .rejecting (hpoint hcall) (hundone.trans hold) (hclosers hnone)
  | closing hcall hold hs => exact .closing (hpoint hcall) (hundone.trans hold) (hrejected hs)
  | awaiting tasks hcall hold hs hchannels htasks =>
    exact .awaiting tasks (hpoint hcall) (hundone.trans hold) (hrejected hs) (fun c hc => hdone c (hchannels c hc))
      fun k hk => (htasks k hk).imp_right (hover k)
  | done hcall hs hchannels hhandlers =>
    exact .done (hover m hcall) (hrejected hs) (fun c hc => hdone c (hchannels c hc)) fun k hk => hover k (hhandlers k hk)

/-- The owner of the shutdown is inside it, or over. -/
theorem Progress.call (h : Progress s m snapshot) :
    (∃ point, s.Suspended m point ∧ point.isStage ∧ point ≠ .waiting) ∨ s.isOver m := by
  cases h with
  | rejecting hcall => exact .inl ⟨_,hcall,rfl,nofun⟩
  | closing hcall => exact .inl ⟨_,hcall,rfl,nofun⟩
  | awaiting tasks hcall => exact .inl ⟨_,hcall,rfl,nofun⟩
  | done hcall => exact .inr hcall

theorem Suspended.unique {point point' : HostPoint} (h : s.Suspended n point) (h' : s.Suspended n point') : point = point' := by
  obtain ⟨request,hcall⟩ := h
  obtain ⟨request',hcall'⟩ := h'
  rw [hcall] at hcall'
  exact HostState.at.inj (HostCall.mk.inj (Option.some.inj hcall')).2

/-- A call that begins, or is not inside the shutdown, is not its owner. -/
theorem Progress.ne {a : HostAction} (h : Progress s m snapshot) (hstarts : Starts s n request a signal before)
    (hbefore : ∀ point, before = some point → point.isStage → point = .waiting) : n ≠ m := by
  rintro rfl
  rcases h.call with ⟨point,hpoint,hstage,hne⟩ | hover
  · cases hstarts with
    | begin hnone =>
      obtain ⟨request',hcall⟩ := hpoint
      rw [hnone] at hcall
      exact nomatch hcall
    | resume signal point' hcall =>
      obtain rfl := hpoint.unique ⟨request,hcall⟩
      exact hne (hbefore _ rfl hstage)
  · rw [hstarts.not_over] at hover
    exact nomatch hover

theorem Rejected.keep (h : s.Rejected snapshot) (hlog : ∀ t ∈ s.log, t ∈ v.log) : v.Rejected snapshot := by
  intro k hk
  obtain ⟨code,hcode⟩ := h k hk
  exact ⟨code,hlog _ hcode⟩

theorem Claimed.keep (hs : Claimed s m snapshot) (hclosed : v.host.closed) (howner : v.host.closeOwner = s.host.closeOwner)
    (hundone : s.host.closeDone → v.host.closeDone) (hold : ∀ t ∈ s.log, t ∈ v.log)
    (hlog : ∀ t ∈ v.log, t ∈ s.log ∨ t.isGate ∨ ∃ k, t = .closed k ∧ v.host.closeDone)
    (hadmitted : v.admitted = s.admitted) (hdone : ∀ c, s.channelDone c → v.channelDone c)
    (hrejections : ∀ k gathered, v.rejections k = some gathered → s.rejections k = some gathered ∨ gathered = .created ∨
      ∃ code, .socketClose k code ∈ v.log)
    (hcancelled : ∀ k ∈ v.cancelled, k ∈ s.cancelled ∨ k ≠ m ∧ ∀ c ∈ s.admitted, v.channelDone c)
    (hhandshaking : ∀ k, v.handshaking k → s.handshaking k) (hhandling : ∀ k, v.Suspended k .handling → s.Suspended k .handling)
    (hstage : ∀ k point, v.Suspended k point → point.isStage → s.Suspended k point ∨ k = m ∨ point = .waiting) :
    Claimed v m snapshot where
  closed := hclosed
  owner := howner.trans hs.owner
  found found hfound := by
    rcases hlog _ hfound with hin | hgate | ⟨k,heq,_⟩
    · exact hs.found found hin
    · exact nomatch hgate
    · exact nomatch heq
  returned k hk := by
    rcases hlog _ hk with hin | hgate | ⟨j,_,hdone⟩
    · exact hundone (hs.returned k hin)
    · exact nomatch hgate
    · exact hdone
  pending k hk := hs.pending k (hhandshaking k hk)
  handlers k hk := hs.handlers k (hhandling k hk)
  outside := hs.outside
  released c hc := (hs.released c (hadmitted ▸ hc)).imp_right (hdone c)
  rejected k gathered hk := by
    rcases hrejections k gathered hk with hin | hnew
    · refine (hs.rejected k gathered hin).imp_right ?_
      rintro ⟨code,hcode⟩
      exact ⟨code,hold _ hcode⟩
    · exact hnew
  safe k hk := by
    rw [hadmitted]
    rcases hcancelled k hk with hin | ⟨hne,hall⟩
    · obtain ⟨hne,hsafe⟩ := hs.safe k hin
      exact ⟨hne,fun hk c hc => hdone c (hsafe hk c hc)⟩
    · exact ⟨hne,fun _ => hall⟩
  stage k point hk hpoint := by
    rcases hstage k point hk hpoint with hin | hrest
    · exact hs.stage k point hin hpoint
    · exact hrest

/-- The conclusion of a turn. -/
theorem Claimed.conclude (hs : Claimed u m snapshot) (hsame : state.handshaking → u.handshaking n)
    (hhandling : state ≠ .at .handling) (hstage : ∀ point, state = .at point → point.isStage → n = m ∨ point = .waiting) :
    Claimed (u.conclude n { request, state }) m snapshot := by
  refine hs.keep hs.closed rfl id (fun _ => id) (fun _ => .inl) rfl (fun _ => id) (fun _ _ => .inl) (fun _ => .inl)
    (fun k hk => ?_) (fun k => suspended_of_conclude rfl hhandling) fun k point hk hpoint => ?_
  · rw [handshaking_conclude rfl] at hk
    split at hk
    · rename_i heq
      rw [heq]
      exact hsame hk
    · exact hk
  · rcases (suspended_conclude rfl k point).mp hk with ⟨rfl,heq⟩ | ⟨_,hk⟩
    · exact .inr (hstage point heq hpoint)
    · exact .inl hk

/-- All admitted channels are closed behind the channels of the snapshot. -/
theorem Claimed.all_done (hs : Claimed s m snapshot) (hchannels : ∀ c ∈ snapshot.channels, s.channelDone c) (c : ℕ)
    (hc : c ∈ s.admitted) : s.channelDone c := by
  rcases hs.released c hc with hin | hdone
  · exact hchannels c hin
  · exact hdone

theorem mem_unfinished {tasks : List ℕ} {k : ℕ} : k ∈ s.unfinished n tasks ↔ k ∈ tasks ∧ k ≠ n ∧ s.isOver k = false := by
  simp [unfinished]

/-- The owner comes to its end. -/
theorem finished_shut (hs : Claimed v m snapshot) (hcalls : u.calls = v.calls) (hhost : u.host = v.finished.host)
    (hlog : u.log = .closed m :: v.log) (hadmitted : u.admitted = v.admitted) (hloops : u.loops = v.loops)
    (hrejections : u.rejections = v.rejections) (hcancelled : u.cancelled = v.cancelled) (hrejected : v.Rejected snapshot)
    (hchannels : ∀ c ∈ snapshot.channels, v.channelDone c) (hover : ∀ k ∈ snapshot.handlers, v.isOver k) :
    Claimed (u.conclude m { request, state := .returned }) m snapshot ∧
      Progress (u.conclude m { request, state := .returned }) m snapshot := by
  have hold : ∀ t ∈ v.log, t ∈ u.log := fun t ht => hlog ▸ List.mem_cons_of_mem _ ht
  have hdone : ∀ c, v.channelDone c → u.channelDone c := fun c hc => by simpa [channelDone,hloops] using hc
  have hclosed : u.host.closed = v.host.closed := by rw [hhost]; rfl
  have howner : u.host.closeOwner = v.host.closeOwner := by rw [hhost]; rfl
  have hend : u.host.closeDone = true := by rw [hhost]; rfl
  have hclaimed : Claimed u m snapshot := by
    refine hs.keep (hclosed.trans hs.closed) howner (fun _ => hend) hold (fun t ht => ?_) hadmitted hdone
      (fun k _ => hrejections ▸ .inl) (fun k => hcancelled ▸ .inl) (fun k hk => ?_) (fun k hk => ?_) fun k point hk _ => .inl ?_
    · rw [hlog] at ht
      rcases List.mem_cons.mp ht with rfl | hin
      · exact .inr (.inr ⟨m,rfl,hend⟩)
      · exact .inl hin
    · simpa [handshaking,hcalls] using hk
    · simpa [Suspended,hcalls] using hk
    · simpa [Suspended,hcalls] using hk
  refine ⟨hclaimed.conclude (by rintro ⟨⟩) (by rintro ⟨⟩) (by rintro _ ⟨⟩ ⟨⟩),
    .done ?_ (hrejected.keep hold) (fun c hc => hdone c (hchannels c hc)) fun k hk => ?_⟩
  · rw [isOver_conclude rfl,if_pos rfl]
    rfl
  · rw [isOver_conclude hcalls]
    split
    · rfl
    · exact hover k hk

theorem CloseEnd.shut (h : CloseEnd m snapshot v u state) (hs : Claimed v m snapshot) (hundone : v.host.closeDone = false)
    (hrejected : v.Rejected snapshot) (hchannels : ∀ c ∈ snapshot.channels, v.channelDone c) :
    Claimed (u.conclude m { request, state }) m snapshot ∧ Progress (u.conclude m { request, state }) m snapshot := by
  have hhandler : ∀ k ∈ snapshot.handlers, k ≠ m := fun k hk heq => hs.outside (heq ▸ hk)
  cases h with
  | awaiting =>
    have hclaimed : Claimed (v.cancelTasks (v.unfinished m snapshot.handlers)) m snapshot := by
      refine hs.keep hs.closed rfl id (fun _ => id) (fun _ => .inl) rfl (fun _ => id) (fun _ _ => .inl) (fun k hk => ?_)
        (fun _ => id) (fun _ => id) fun _ _ hk _ => .inl hk
      rcases List.mem_append.mp hk with hnew | hin
      · exact .inr ⟨(mem_unfinished.mp hnew).2.1,hs.all_done hchannels⟩
      · exact .inl hin
    refine ⟨hclaimed.conclude nofun nofun fun _ _ _ => .inl rfl,.awaiting (snapshot.pendingTasks ++ v.unfinished m snapshot.handlers)
      ⟨request,?_⟩ hundone hrejected hchannels fun k hk => ?_⟩
    · rw [calls_conclude rfl,if_pos rfl]
    · rw [isOver_conclude rfl,if_neg (hhandler k hk)]
      by_cases hover : v.isOver k
      · exact .inr hover
      · exact .inl (List.mem_append_right _ (mem_unfinished.mpr ⟨hk,hhandler k hk,by simpa using hover⟩))
  | finished htasks hhandlers =>
    refine finished_shut hs rfl rfl rfl rfl rfl rfl rfl hrejected hchannels fun k hk => ?_
    by_contra hover
    have hin : k ∈ v.unfinished m snapshot.handlers := mem_unfinished.mpr ⟨hk,hhandler k hk,by simpa using hover⟩
    rw [hhandlers] at hin
    exact nomatch hin

theorem CloseRest.shut (h : CloseRest m snapshot v u state) (hs : Claimed v m snapshot) (hundone : v.host.closeDone = false)
    (hrejected : v.Rejected snapshot) :
    Claimed (u.conclude m { request, state }) m snapshot ∧ Progress (u.conclude m { request, state }) m snapshot := by
  cases h with
  | channels =>
    have hclaimed : Claimed { v with closers := gather v.closers snapshot.channels } m snapshot :=
      hs.keep hs.closed rfl id (fun _ => id) (fun _ => .inl) rfl (fun _ => id) (fun _ _ => .inl) (fun _ => .inl)
        (fun _ => id) (fun _ => id) fun _ _ hk _ => .inl hk
    refine ⟨hclaimed.conclude nofun nofun fun _ _ _ => .inl rfl,.closing ⟨request,?_⟩ hundone hrejected⟩
    rw [calls_conclude rfl,if_pos rfl]
  | rest hnil h => exact h.shut hs hundone hrejected fun c hc => by simp [hnil] at hc

/-- The claim. -/
theorem Opened.claim (hs : Opened s) (hcounted : Counted cfg s) (hstaged : Staged s) (hnone : s.calls n = none) :
    Claimed (s.claimClose n) n (s.takeSnapshot n) where
  closed := rfl
  owner := rfl
  found found hfound := by
    rcases List.mem_cons.mp hfound with heq | hin
    · exact HostTrace.snapshot.inj heq
    · exact absurd hin (hs.snapshot found)
  returned k hk := by
    rcases List.mem_cons.mp hk with heq | hin
    · exact nomatch heq
    · exact absurd hin (hs.returned k)
  pending k hk := (hcounted.pending k).mpr hk
  handlers := hs.handlers
  outside hin := hs.begun n hin hnone
  released := hs.released
  rejected k gathered hk := by
    have hold : s.rejections k = some gathered := hk
    rw [hs.rejections k] at hold
    exact nomatch hold
  safe k hk := by
    have hin : k ∈ s.unfinished n s.host.pending ++ s.cancelled := hk
    rw [hs.cancelled,List.append_nil] at hin
    obtain ⟨hpending,hne,_⟩ := mem_unfinished.mp hin
    refine ⟨hne,fun hadmitted => ?_⟩
    -- a socket that shakes hands is not admitted
    have hdone := (hcounted.begun k hadmitted).2
    rw [(hcounted.pending k).mp hpending] at hdone
    exact nomatch hdone
  stage k point hk hpoint := by
    obtain ⟨request,hcall⟩ := hk
    have hclosed := hstaged k request point hcall hpoint
    rw [hs.hopen] at hclosed
    exact nomatch hclosed

/-- A turn that leaves an open host open. -/
theorem Opened.conclude (hs : Opened s) (hopen : u.host.closed = false) (hundone : u.host.closeDone = false)
    (hcancelled : u.cancelled = s.cancelled) (hrejections : u.rejections = s.rejections) (hclosers : u.closers = s.closers)
    (hlog : ∀ t ∈ u.log, t ∈ s.log ∨ t.isGate)
    (hcalls : u.calls = s.calls) (hhandlers : ∀ k ∈ s.host.handlerTasks, k ≠ n → k ∈ u.host.handlerTasks)
    (hstate : state = .at .handling → n ∈ u.host.handlerTasks)
    (hbegun : ∀ k ∈ u.host.handlerTasks, k = n ∨ k ∈ s.host.handlerTasks)
    (hreleased : ∀ c ∈ u.admitted, c ∈ u.host.channels ∨ u.channelDone c) : Opened (u.conclude n { request, state }) where
  hopen := hopen
  undone := hundone
  cancelled := hcancelled.trans hs.cancelled
  rejections k := (congrFun hrejections k).trans (hs.rejections k)
  closers c := (congrFun hclosers c).trans (hs.closers c)
  snapshot found hfound := by
    rcases hlog _ hfound with hin | hgate
    · exact hs.snapshot found hin
    · exact nomatch hgate
  returned k hk := by
    rcases hlog _ hk with hin | hgate
    · exact hs.returned k hin
    · exact nomatch hgate
  handlers k hk := by
    rcases (suspended_conclude hcalls k _).mp hk with ⟨rfl,heq⟩ | ⟨hne,hk⟩
    · exact hstate heq
    · exact hhandlers k (hs.handlers k hk) hne
  begun k hk := by
    rw [calls_conclude hcalls]
    split
    · exact nofun
    · rename_i hne
      rcases hbegun k hk with heq | hin
      · exact absurd heq hne
      · exact hs.begun k hin
  released := hreleased

theorem mem_erase_or {tasks : List ℕ} {k : ℕ} (hk : k ∈ tasks) : k ∈ tasks.erase n ∨ k = n := by
  by_cases hne : k = n
  · exact .inr hne
  · exact .inl ((List.mem_erase_of_ne hne).mpr hk)

theorem opened_turn {a : HostAction} (hstarts : Starts s n request a signal before)
    (h : Turn cfg s n request signal before u state) (hstaged : Staged s) (hfinals : Finals s)
    (hdone : ∀ c, s.channelDone c → u.channelDone c) (hopen : u.host.closed = false) (hs : Opened s) :
    Opened (u.conclude n { request, state }) := by
  have hstage : ∀ point, before = some point → point.isStage = false := by
    intro point hpoint
    by_contra hstage
    have hclosed := hstaged n request point (hstarts.point hpoint) (by simpa using hstage)
    rw [hs.hopen] at hclosed
    exact nomatch hclosed
  have hreleased : ∀ c ∈ s.admitted, c ∈ s.host.channels ∨ u.channelDone c := fun c hc => (hs.released c hc).imp_right (hdone c)
  have hlog : ∀ {log : List HostTrace}, log = s.log → ∀ t ∈ log, t ∈ s.log ∨ t.isGate :=
    fun heq t ht => .inl (heq ▸ ht)
  have hgate : ∀ {x : HostTrace} {log : List HostTrace}, x.isGate → (∀ t ∈ log, t ∈ s.log ∨ t.isGate) →
      ∀ t ∈ x :: log, t ∈ s.log ∨ t.isGate := by
    intro x log hx hlog t ht
    rcases List.mem_cons.mp ht with rfl | hin
    · exact .inr hx
    · exact hlog t hin
  cases h with
  | gateClosed _ hclosed | waits _ hclosed =>
    rw [hs.hopen] at hclosed
    exact nomatch hclosed
  | gateBusy =>
    exact hs.conclude hopen hs.undone rfl rfl rfl (hgate rfl (hgate rfl (hlog rfl))) rfl (fun _ hk _ => hk) nofun (fun _ => .inr) hreleased
  | entered => exact hs.conclude hopen hs.undone rfl rfl rfl (hlog rfl) rfl (fun _ hk _ => hk) nofun (fun _ => .inr) hreleased
  | misrouted | rejected =>
    exact hs.conclude hopen hs.undone rfl rfl rfl (hgate rfl (hlog rfl)) rfl (fun _ hk _ => hk) nofun (fun _ => .inr) hreleased
  | secondBusy =>
    exact hs.conclude hopen hs.undone rfl rfl rfl (hgate rfl (hgate rfl (hlog rfl))) rfl (fun _ hk _ => hk) nofun (fun _ => .inr) hreleased
  | left | refused | unreturned =>
    exact hs.conclude hopen hs.undone rfl rfl rfl (hlog rfl) rfl (fun _ hk _ => hk) nofun (fun _ => .inr) hreleased
  | accepted =>
    refine hs.conclude hopen hs.undone rfl rfl rfl (hlog rfl) rfl (fun _ hk _ => hk) nofun (fun _ => .inr) fun c hc => ?_
    rcases List.mem_cons.mp hc with rfl | hin
    · exact .inl List.mem_insert_self
    · exact (hreleased c hin).imp_left List.mem_insert_of_mem
  | running =>
    refine hs.conclude hopen hs.undone rfl rfl rfl (hlog rfl) rfl (fun k hk _ => List.mem_insert_of_mem hk)
      (fun _ => List.mem_insert_self) (fun k hk => List.mem_insert_iff.mp hk) fun c hc => ?_
    rcases List.mem_cons.mp hc with rfl | hin
    · exact .inl List.mem_insert_self
    · exact (hreleased c hin).imp_left List.mem_insert_of_mem
  | handled =>
    rw [closeFinal_eq] at hopen hdone hreleased ⊢
    exact hs.conclude hopen hs.undone rfl rfl rfl (hlog rfl) rfl (fun _ hk _ => hk) nofun (fun _ => .inr) hreleased
  | discarded behind huse hstate =>
    refine hs.conclude hopen hs.undone rfl rfl rfl (hlog rfl) rfl (fun k hk hne => (List.mem_erase_of_ne hne).mpr hk)
      (fun heq => absurd heq (hstate _)) (fun k hk => .inr (List.mem_of_mem_erase hk)) fun c hc => ?_
    rcases hreleased c hc with hin | hin
    · refine (mem_erase_or hin).imp_right ?_
      rintro rfl
      -- the last call of `close` has returned
      obtain ⟨loop,hloop,hcloses⟩ := hfinals.closing c behind ⟨request,hstarts.point rfl⟩
      exact done_of_returned hloop hcloses huse
    · exact .inr hin
  | done _ hbefore =>
    rcases hbefore with ⟨_,_,hclosed⟩ | rfl
    · rw [hs.hopen] at hclosed
      exact nomatch hclosed
    · exact nomatch hstage _ rfl
  | rejecting => exact nomatch hopen
  | nothingPending _ _ h =>
    rw [h.closed] at hopen
    exact nomatch hopen
  | unwaited | pendingRejected | channelsClosed | tasksOver => exact nomatch hstage _ rfl
  | closeRaised _ hpoint =>
    rcases hpoint with ⟨snapshot,rfl | rfl⟩ | ⟨tasks,rfl⟩ <;> exact nomatch hstage _ rfl

/-- The turn that claims the shutdown. -/
theorem claimed_turn {a : HostAction} (hstarts : Starts s n request a signal before)
    (h : Turn cfg s n request signal before u state) (hstaged : Staged s) (hcounted : Counted cfg s) (hs : Opened s)
    (hclosed : u.host.closed) : ∃ snapshot, Claimed (u.conclude n { request, state }) n snapshot ∧
      Progress (u.conclude n { request, state }) n snapshot := by
  have hopen := hs.hopen
  have hstage : ∀ point, before = some point → point.isStage → False := by
    intro point hpoint hstage
    have hclosed := hstaged n request point (hstarts.point hpoint) hstage
    rw [hopen] at hclosed
    exact nomatch hclosed
  cases h with
  | rejecting =>
    have hnone : s.calls n = none := by
      cases hstarts with
      | begin hnone => exact hnone
    have hclaim := hs.claim hcounted hstaged hnone
    have hgathered : Claimed { s.claimClose n with rejections := gather s.rejections s.host.pending } n (s.takeSnapshot n) := by
      refine hclaim.keep rfl rfl id (fun _ => id) (fun _ => .inl) rfl (fun _ => id) (fun k gathered hk => ?_)
        (fun _ => .inl) (fun _ => id) (fun _ => id) fun _ _ hk _ => .inl hk
      have hgather : gather s.rejections s.host.pending k = some gathered := hk
      rw [gather,hs.rejections k] at hgather
      split at hgather
      · exact .inr (.inl (Option.some.inj hgather).symm)
      · exact nomatch hgather
    refine ⟨_,hgathered.conclude nofun nofun fun _ _ _ => .inl rfl,.rejecting ⟨request,?_⟩ hs.undone hs.closers⟩
    rw [calls_conclude rfl,if_pos rfl]
  | nothingPending _ hpending h =>
    have hnone : s.calls n = none := by
      cases hstarts with
      | begin hnone => exact hnone
    refine ⟨_,h.shut (hs.claim hcounted hstaged hnone) hs.undone fun k hk => ?_⟩
    rw [takeSnapshot,hpending] at hk
    exact nomatch hk
  | handled =>
    rw [closeFinal_eq] at hclosed
    rw [hopen] at hclosed
    exact nomatch hclosed
  | unwaited | pendingRejected | channelsClosed | tasksOver => exact (hstage _ rfl rfl).elim
  | closeRaised _ hpoint =>
    rcases hpoint with ⟨snapshot,rfl | rfl⟩ | ⟨tasks,rfl⟩ <;> exact (hstage _ rfl rfl).elim
  | _ =>
    have hfalse : s.host.closed := hclosed
    rw [hopen] at hfalse
    exact nomatch hfalse

/-- A turn of a closed host. -/
theorem shut_turn {a : HostAction} (hstarts : Starts s n request a signal before)
    (h : Turn cfg s n request signal before u state) (hlooped : Looped s) (ha : CloseCancels s a)
    (hdone : ∀ c, s.channelDone c → u.channelDone c) (hs : Claimed s m snapshot) (hprogress : Progress s m snapshot) :
    Claimed (u.conclude n { request, state }) m snapshot ∧ Progress (u.conclude n { request, state }) m snapshot := by
  have haside : ∀ {v : HostLoop} {state : HostState}, v.calls = s.calls → v.host.closed = s.host.closed →
      v.host.closeOwner = s.host.closeOwner → v.host.closeDone = s.host.closeDone → (∀ t ∈ s.log, t ∈ v.log) →
      (∀ t ∈ v.log, t ∈ s.log ∨ t.isGate ∨ ∃ k, t = .closed k ∧ v.host.closeDone) → v.admitted = s.admitted →
      (∀ c, s.channelDone c → v.channelDone c) → v.rejections = s.rejections → v.closers = s.closers →
      v.cancelled = s.cancelled → (∀ point, before = some point → point.isStage → point = .waiting) →
      (state.handshaking → s.handshaking n) → state ≠ .at .handling → (∀ point, state = .at point → point.isStage → point = .waiting) →
      Claimed (v.conclude n { request, state }) m snapshot ∧ Progress (v.conclude n { request, state }) m snapshot := by
    intro v state hcalls hclosed howner hend hold hlog hadmitted hdone hrejections hclosers hcancelled hbefore hsame hhandling hstate
    have hne := hprogress.ne hstarts hbefore
    have hhandshaking : ∀ k, v.handshaking k = s.handshaking k := fun k => by simp only [handshaking,hcalls]
    have hsuspended : ∀ k point, v.Suspended k point → s.Suspended k point := by
      rintro k point ⟨request,hk⟩
      exact ⟨request,hcalls ▸ hk⟩
    have hclaimed : Claimed v m snapshot := by
      refine hs.keep (hclosed.trans hs.closed) howner (fun h => hend.trans h) hold hlog hadmitted hdone (fun k _ => hrejections ▸ .inl)
        (fun k => hcancelled ▸ .inl) (fun k hk => hhandshaking k ▸ hk) (fun k => hsuspended k _) fun k point hk _ => .inl (hsuspended k point hk)
    refine ⟨hclaimed.conclude (fun h => hhandshaking n ▸ hsame h) hhandling fun point hpoint hstage => .inr (hstate point hpoint hstage),
      hprogress.keep ?_ hend (fun hnone c => (congrFun hclosers c).trans (hnone c)) hold hdone fun k hk => ?_⟩
    · rw [calls_conclude hcalls,if_neg hne.symm]
    · rw [isOver_conclude hcalls]
      split
      · rename_i heq
        rw [heq,hstarts.not_over] at hk
        cases hk
      · exact hk
  have hopen : ∀ {p : Prop}, s.host.closed = false → p := by
    intro p hopen
    have hclosed := hs.closed
    rw [hopen] at hclosed
    cases hclosed
  have hcons : ∀ {x : HostTrace}, ∀ t ∈ s.log, t ∈ x :: s.log := fun t => List.mem_cons_of_mem _
  have hgate : ∀ {x : HostTrace}, x.isGate → ∀ t ∈ x :: s.log, t ∈ s.log ∨ t.isGate ∨ ∃ k, t = .closed k ∧ s.host.closeDone := by
    intro x hx t ht
    rcases List.mem_cons.mp ht with rfl | hin
    · exact .inr (.inl hx)
    · exact .inl hin
  -- a stage of the owner
  have howner : ∀ {point}, before = some point → point.isStage → point ≠ .waiting → s.Suspended n point ∧ n = m := by
    intro point hpoint hstage hne
    have hcall : s.Suspended n point := ⟨request,hstarts.point hpoint⟩
    exact ⟨hcall,(hs.stage n point hcall hstage).resolve_right hne⟩
  cases h with
  | gateClosed =>
    exact haside rfl rfl rfl rfl hcons (hgate rfl) rfl hdone rfl rfl rfl
      (by rintro _ ⟨⟩ ⟨⟩) (by rintro ⟨⟩) (by rintro ⟨⟩) (by rintro _ ⟨⟩ ⟨⟩)
  | gateBusy _ _ h | entered _ h | misrouted _ _ h | secondBusy _ _ h | accepted h | running h | rejecting h | nothingPending h =>
    exact hopen h
  | rejected =>
    exact haside rfl rfl rfl rfl hcons (hgate rfl) rfl hdone rfl rfl rfl (by rintro _ ⟨⟩ ⟨⟩)
      (fun _ => handshaking_at (hstarts.point rfl)) (by rintro ⟨⟩) (by rintro _ ⟨⟩ ⟨⟩)
  | left e hpoint =>
    refine haside rfl rfl rfl rfl (fun _ => id) (fun _ => .inl) rfl hdone rfl rfl rfl ?_ (by rintro ⟨⟩) (by rintro ⟨⟩) (by rintro _ ⟨⟩ ⟨⟩)
    rcases hpoint with rfl | ⟨behind,rfl⟩ <;> rintro _ ⟨⟩ ⟨⟩
  | refused =>
    exact haside rfl rfl rfl rfl (fun _ => id) (fun _ => .inl) rfl hdone rfl rfl rfl
      (by rintro _ ⟨⟩ ⟨⟩) (by rintro ⟨⟩) (by rintro ⟨⟩) (by rintro _ ⟨⟩ ⟨⟩)
  | handled =>
    rw [closeFinal_eq] at hdone ⊢
    exact haside rfl rfl rfl rfl (fun _ => id) (fun _ => .inl) rfl hdone rfl rfl rfl
      (by rintro _ ⟨⟩ ⟨⟩) (by rintro ⟨⟩) (by rintro ⟨⟩) (by rintro _ ⟨⟩ ⟨⟩)
  | discarded behind huse hstate =>
    refine haside rfl rfl rfl rfl (fun _ => id) (fun _ => .inl) rfl hdone rfl rfl rfl (by rintro _ ⟨⟩ ⟨⟩) (fun h => ?_) (hstate _)
      fun point hpoint => absurd hpoint (hstate point)
    cases state with
    | «at» point => exact absurd rfl (hstate point)
    | returned | raised => cases h
  | unreturned e hpoint =>
    refine haside rfl rfl rfl rfl (fun _ => id) (fun _ => .inl) rfl hdone rfl rfl rfl ?_ (by rintro ⟨⟩) (by rintro ⟨⟩) (by rintro _ ⟨⟩ ⟨⟩)
    rcases hpoint with rfl | ⟨behind,rfl⟩ <;> rintro _ ⟨⟩ ⟨⟩
  | waits =>
    refine haside rfl rfl rfl rfl (fun _ => id) (fun _ => .inl) rfl hdone rfl rfl rfl
      (by rintro _ ⟨⟩ ⟨⟩) (by rintro ⟨⟩) (by rintro ⟨⟩) fun point hpoint _ => ?_
    exact (HostState.at.inj hpoint).symm
  | done hend hbefore =>
    have hwaiting : ∀ point, before = some point → point.isStage → point = .waiting := by
      rintro point hpoint -
      rcases hbefore with ⟨hnone,_⟩ | hwaiting
      · rw [hnone] at hpoint
        cases hpoint
      · rw [hwaiting] at hpoint
        exact (Option.some.inj hpoint).symm
    have hne := hprogress.ne hstarts hwaiting
    have hdone' : s.host.closeDone := by
      rcases hend with howner | hdone'
      · rw [hs.owner] at howner
        exact absurd (Option.some.inj howner).symm hne
      · exact hdone'
    refine haside rfl rfl rfl rfl hcons (fun t ht => ?_) rfl hdone rfl rfl rfl hwaiting (by rintro ⟨⟩) (by rintro ⟨⟩) (by rintro _ ⟨⟩ ⟨⟩)
    rcases List.mem_cons.mp ht with rfl | hin
    · exact .inr (.inr ⟨n,rfl,hdone'⟩)
    · exact .inl hin
  | unwaited =>
    refine haside rfl rfl rfl rfl (fun _ => id) (fun _ => .inl) rfl hdone rfl rfl rfl
      (fun point hpoint _ => ?_) (by rintro ⟨⟩) (by rintro ⟨⟩) (by rintro _ ⟨⟩ ⟨⟩)
    exact (Option.some.inj hpoint).symm
  | pendingRejected found hrejected h =>
    obtain ⟨hcall,rfl⟩ := howner rfl rfl fun h => by cases h
    cases hprogress with
    | rejecting hcall' hundone =>
      obtain rfl := HostPoint.rejectingPending.inj (hcall.unique hcall')
      refine h.shut hs hundone fun k hk => ?_
      rcases hs.rejected k _ (hrejected k hk) with heq | hclosed
      · cases heq
      · exact hclosed
    | closing hcall' => cases hcall.unique hcall'
    | awaiting tasks hcall' => cases hcall.unique hcall'
    | done hover =>
      rw [not_over hcall] at hover
      cases hover
  | channelsClosed found hclosed h =>
    obtain ⟨hcall,rfl⟩ := howner rfl rfl fun h => by cases h
    cases hprogress with
    | rejecting hcall' => cases hcall.unique hcall'
    | closing hcall' hundone hrejected =>
      obtain rfl := HostPoint.closingChannels.inj (hcall.unique hcall')
      refine h.shut hs hundone hrejected fun c hc => ?_
      have huse := hclosed c hc
      cases hloop : s.loops c with
      | none => simp [useState,hloop] at huse
      | some loop =>
        have hstarted : s.closers c = some .started := by
          by_contra hnew
          rw [useState_of hloop,hlooped.fresh c loop hloop hnew] at huse
          cases huse
        exact done_of_returned hloop (hlooped.gathered c loop hloop hstarted).1 huse
    | awaiting tasks hcall' => cases hcall.unique hcall'
    | done hover =>
      rw [not_over hcall] at hover
      cases hover
  | tasksOver tasks hover =>
    obtain ⟨hcall,rfl⟩ := howner rfl rfl fun h => by cases h
    cases hprogress with
    | rejecting hcall' => cases hcall.unique hcall'
    | closing hcall' => cases hcall.unique hcall'
    | awaiting tasks' hcall' hundone hrejected hchannels htasks =>
      obtain rfl := HostPoint.awaitingTasks.inj (hcall.unique hcall')
      exact finished_shut hs rfl rfl rfl rfl rfl rfl rfl hrejected hchannels fun k hk => (htasks k hk).elim (hover k) id
    | done hover =>
      rw [not_over hcall] at hover
      cases hover
  | closeRaised e hpoint hwhy =>
    rcases hwhy with rfl | ⟨c,hraised⟩
    · -- the owner is not cancelled
      have hcancelled : n ∈ s.cancelled := by
        cases hstarts with
        | resume => exact ha
      have hmine : n = m := by
        rcases hpoint with ⟨found,rfl | rfl⟩ | ⟨tasks,rfl⟩ <;> exact (howner rfl rfl fun h => by cases h).2
      exact absurd hmine (hs.safe n hcancelled).1
    · cases hloop : s.loops c with
      | none => simp [useState,hloop] at hraised
      | some loop =>
        rw [useState_of hloop] at hraised
        obtain ⟨⟨task,state⟩,hcall,rfl⟩ := Option.map_eq_some_iff.mp hraised
        have hstarted : s.closers c = some .started := by
          by_contra hnew
          rw [hlooped.fresh c loop hloop hnew] at hcall
          cases hcall
        exact absurd hcall ((hlooped.gathered c loop hloop hstarted).2 task _)

/-- What the steps of the channels and of the gathered tasks leave as it is. -/
theorem Other.same {a : HostAction} (h : Other s a u) : u.admitted = s.admitted ∧ u.cancelled = s.cancelled ∧
    (∀ t ∈ s.log, t ∈ u.log) ∧ (∀ t ∈ u.log, t ∈ s.log ∨ t.isGate) ∧
    ((∀ c, s.closers c = none) → ∀ c, u.closers c = none) ∧ ((∀ k, s.rejections k = none) → ∀ k, u.rejections k = none) := by
  have hkept : ∀ t ∈ s.log, t ∈ s.log ∨ t.isGate := fun _ => .inl
  cases h with
  | used | goesOn => exact ⟨rfl,rfl,fun _ => id,hkept,id,id⟩
  | rejecting m hm =>
    refine ⟨rfl,rfl,fun _ => List.mem_cons_of_mem _,fun t ht => ?_,id,fun hnone => ?_⟩
    · rcases List.mem_cons.mp ht with rfl | hin
      · exact .inr rfl
      · exact .inl hin
    · rw [hnone m] at hm
      exact nomatch hm
  | rejected m hm =>
    refine ⟨rfl,rfl,fun _ => id,hkept,id,fun hnone => ?_⟩
    rw [hnone m] at hm
    exact nomatch hm
  | closing c loop loop' hcreated =>
    refine ⟨rfl,rfl,fun _ => id,hkept,fun hnone => ?_,id⟩
    rw [hnone c] at hcreated
    exact nomatch hcreated

/-- A rejection that has been gathered closes its socket before it ends. -/
theorem Other.rejections {a : HostAction} (h : Other s a u) (hs : Claimed s m snapshot) (k : ℕ) (gathered : Gathered)
    (hk : u.rejections k = some gathered) : s.rejections k = some gathered ∨ gathered = .created ∨
      ∃ code, .socketClose k code ∈ u.log := by
  cases h with
  | used | goesOn | closing => exact .inl hk
  | rejecting j hj =>
    by_cases hne : k = j
    · subst hne
      exact .inr (.inr ⟨1001,List.mem_cons_self⟩)
    · exact .inl ((Function.update_of_ne hne _ _).symm.trans hk)
  | rejected j hj =>
    by_cases hne : k = j
    · subst hne
      exact .inr (.inr ((hs.rejected k _ hj).resolve_left nofun))
    · exact .inl ((Function.update_of_ne hne _ _).symm.trans hk)

theorem opened_other {a : HostAction} (h : Other s a u) (hdone : ∀ c, s.channelDone c → u.channelDone c) (hs : Opened s) :
    Opened u := by
  obtain ⟨hadmitted,hcancelled,_,hlog,hclosers,hrejections⟩ := h.same
  have hhost := h.host
  have hcalls := h.calls
  refine ⟨hhost ▸ hs.hopen,hhost ▸ hs.undone,hcancelled.trans hs.cancelled,hrejections hs.rejections,hclosers hs.closers,
    fun found hfound => ?_,fun k hk => ?_,fun k hk => ?_,fun k hk => ?_,fun c hc => ?_⟩
  · exact (hlog _ hfound).elim (hs.snapshot found) nofun
  · exact (hlog _ hk).elim (hs.returned k) nofun
  · rw [hhost]
    rw [Suspended,hcalls] at hk
    exact hs.handlers k hk
  · rw [hcalls]
    exact hs.begun k (hhost ▸ hk)
  · rw [hhost]
    exact (hs.released c (hadmitted ▸ hc)).imp_right (hdone c)

theorem shut_other {a : HostAction} (h : Other s a u) (hdone : ∀ c, s.channelDone c → u.channelDone c)
    (hs : Claimed s m snapshot) (hprogress : Progress s m snapshot) : Claimed u m snapshot ∧ Progress u m snapshot := by
  obtain ⟨hadmitted,hcancelled,hold,hlog,hclosers,_⟩ := h.same
  have hhost := h.host
  have hcalls := h.calls
  have hsuspended : ∀ k point, u.Suspended k point → s.Suspended k point := by
    rintro k point ⟨request,hk⟩
    exact ⟨request,hcalls ▸ hk⟩
  constructor
  · refine hs.keep (hhost ▸ hs.closed) (by rw [hhost]) (by rw [hhost]; exact id) hold
      (fun t ht => (hlog t ht).imp_right .inl) hadmitted hdone (h.rejections hs) (fun k hk => .inl (hcancelled ▸ hk))
      (fun k hk => ?_) (fun k => hsuspended k _) fun k point hk _ => .inl (hsuspended k point hk)
    rwa [handshaking,hcalls] at hk
  · refine hprogress.keep (by rw [hcalls]) (by rw [hhost]) hclosers hold hdone fun k hk => ?_
    rwa [isOver,hcalls]

/-- The life of a host. -/
structure Life (s : HostLoop) : Prop where
  looped : Looped s
  finals : Finals s
  stage : Opened s ∨ ∃ m snapshot, Claimed s m snapshot ∧ Progress s m snapshot

theorem Life.safe (hs : Life s) : Safe s := by
  intro k hk hadmitted
  rcases hs.stage with hopened | ⟨m,snapshot,hclaimed,_⟩
  · rw [hopened.cancelled] at hk
    exact nomatch hk
  · exact (hclaimed.safe k hk).2 hadmitted

/-- Nothing is gathered of the channels before the pending sockets are rejected. -/
theorem Life.closers {a : HostAction} (hs : Life s) (hstarts : Starts s n request a signal before)
    (h : s.host.closed = false ∨ ∃ snapshot, before = some (.rejectingPending snapshot)) : ∀ c, s.closers c = none := by
  rcases hs.stage with hopened | ⟨m,snapshot,hclaimed,hprogress⟩
  · exact hopened.closers
  · rcases h with hopen | ⟨found,rfl⟩
    · have hclosed := hclaimed.closed
      rw [hopen] at hclosed
      exact nomatch hclosed
    · have hcall : s.Suspended n (.rejectingPending found) := ⟨request,hstarts.point rfl⟩
      obtain rfl := (hclaimed.stage n _ hcall rfl).resolve_right nofun
      cases hprogress with
      | rejecting _ _ hclosers => exact hclosers
      | closing hcall' => exact nomatch hcall.unique hcall'
      | awaiting tasks hcall' => exact nomatch hcall.unique hcall'
      | done hover =>
        rw [not_over hcall] at hover
        exact nomatch hover

theorem life_step {a : HostAction} (hs : Life s) (hreceived : Received s) (hstaged : Staged s)
    (hcounted : s.host.closed = false → Counted cfg s) (ha : CloseCancels s a) (h : step cfg s a = some s') : Life s' := by
  rcases step_cases h hreceived with ⟨n,request,signal,before,u,state,hstarts,hturn,rfl⟩ | hother
  · obtain ⟨hlooped,hfinals,hdone⟩ := channels_turn hstarts hturn hs.looped hs.finals hcounted (hs.closers hstarts)
    refine ⟨hlooped,hfinals,?_⟩
    rcases hs.stage with hopened | ⟨m,snapshot,hclaimed,hprogress⟩
    · by_cases hclosed : u.host.closed
      · exact .inr ⟨n,claimed_turn hstarts hturn hstaged (hcounted hopened.hopen) hopened hclosed⟩
      · exact .inl (opened_turn hstarts hturn hstaged hs.finals hdone (by simpa using hclosed) hopened)
    · exact .inr ⟨m,snapshot,shut_turn hstarts hturn hs.looped ha hdone hclaimed hprogress⟩
  · obtain ⟨hlooped,hfinal,hdone⟩ := kept_other hother hs.looped hs.finals hs.safe ha
    have hcalls := hother.calls
    have hsuspended : ∀ k point, s'.Suspended k point → s.Suspended k point := by
      rintro k point ⟨request,hk⟩
      exact ⟨request,hcalls ▸ hk⟩
    refine ⟨hlooped,hs.finals.keep hfinal (fun k => hsuspended k _) (fun k behind => hsuspended k _),?_⟩
    rcases hs.stage with hopened | ⟨m,snapshot,hclaimed,hprogress⟩
    · exact .inl (opened_other hother hdone hopened)
    · exact .inr ⟨m,snapshot,shut_other hother hdone hclaimed hprogress⟩

theorem life_init : Life ({} : HostLoop) := by
  have hcall : ∀ k point, ¬Suspended {} k point := fun k point ⟨request,hk⟩ => nomatch hk
  have hloop : ∀ c loop, ({} : HostLoop).loops c ≠ some loop := fun c loop => nofun
  refine ⟨⟨fun c => by simp,fun c loop h => absurd h (hloop c loop),fun c loop _ _ h => absurd h (hloop c loop),
    fun c loop _ h => absurd h (hloop c loop),fun c loop h => absurd h (hloop c loop),fun c loop h => absurd h (hloop c loop)⟩,
    ⟨fun k hk => absurd hk (hcall k _),fun k behind hk => absurd hk (hcall k _)⟩,.inl ?_⟩
  exact ⟨rfl,rfl,rfl,fun _ => rfl,fun _ => rfl,fun _ => nofun,fun _ => nofun,fun k hk => absurd hk (hcall k _),
    fun _ => nofun,fun _ => nofun⟩

theorem reachable_life (h : ReachableWith (step cfg) CloseCancels Init s) : Life s := by
  refine h.invariant_with (J := fun s => Received s ∧ Staged s ∧ (s.host.closed = false → Counted cfg s))
    (fun s hr => ⟨reachable_received hr,reachable_staged hr,reachable_counted hr⟩) (fun s hs => ?_)
    fun s a s' hj hs ha hstep => life_step hs hj.1 hj.2.1 hj.2.2 ha hstep
  obtain rfl : s = {} := hs
  exact life_init

/-! Behind the shutdown. -/

/-- The call has found the host closed, or it is one of `close`. -/
def TurnedAway (s : HostLoop) (k : ℕ) : Prop := ∀ request state, s.calls k = some { request, state } → request = .close ∨
  ∃ e, state = .raised e ∨ state = .at (.rejecting false e)

/-- A host that is closed admits nobody, and begins no handler. -/
structure Behind (s₁ s : HostLoop) : Prop where
  closed : s.host.closed
  admitted : s.admitted = s₁.admitted
  handling : ∀ k, s.Suspended k .handling → s₁.Suspended k .handling
  away : ∀ k, s₁.calls k = none → s.TurnedAway k
  log : ∀ t ∈ s₁.log, t ∈ s.log

theorem CloseEnd.log (h : CloseEnd n snapshot v u state) : ∀ t ∈ v.log, t ∈ u.log := by
  cases h with
  | awaiting => exact fun _ => id
  | finished => exact fun _ => List.mem_cons_of_mem _

theorem CloseRest.log (h : CloseRest n snapshot v u state) : ∀ t ∈ v.log, t ∈ u.log := by
  cases h with
  | channels => exact fun _ => id
  | rest _ h => exact h.log

theorem CloseEnd.not_handling (h : CloseEnd n snapshot v u state) : state ≠ .at .handling := by
  cases h <;> exact nofun

/-- A turn of a host that is closed. -/
theorem behind_turn {a : HostAction} (hstarts : Starts s n request a signal before)
    (h : Turn cfg s n request signal before u state) (hclosed : s.host.closed) : u.admitted = s.admitted ∧
      state ≠ .at .handling ∧ (∀ t ∈ s.log, t ∈ u.log) ∧ (s.TurnedAway n → request = .close ∨
        ∃ e, state = .raised e ∨ state = .at (.rejecting false e)) := by
  have hopen : ∀ {p : Prop}, s.host.closed = false → p := by
    intro p hopen
    rw [hopen] at hclosed
    exact nomatch hclosed
  have haway : ∀ {p : Prop} {point}, before = some point → (∀ e, point ≠ .rejecting false e) → s.TurnedAway n →
      request = .close ∨ p := by
    intro p point hpoint hne haway
    rcases haway request _ (hstarts.point hpoint) with heq | ⟨e,heq | heq⟩
    · exact .inl heq
    · exact nomatch heq
    · exact absurd (HostState.at.inj heq) (hne e)
  cases h with
  | gateClosed e => exact ⟨rfl,nofun,fun _ => List.mem_cons_of_mem _,fun _ => .inr ⟨e,.inr rfl⟩⟩
  | gateBusy _ _ h | entered _ h | misrouted _ _ h | secondBusy _ _ h | accepted h | running h | rejecting h | nothingPending h =>
    exact hopen h
  | rejected => exact ⟨rfl,nofun,fun _ => List.mem_cons_of_mem _,haway rfl nofun⟩
  | left e | refused _ e | unreturned e | unwaited e | closeRaised e => exact ⟨rfl,nofun,fun _ => id,fun _ => .inr ⟨e,.inl rfl⟩⟩
  | handled =>
    rw [closeFinal_eq]
    exact ⟨rfl,nofun,fun _ => id,haway rfl nofun⟩
  | discarded behind _ hstate => exact ⟨rfl,hstate _,fun _ => id,haway rfl nofun⟩
  | waits hrequest => exact ⟨rfl,nofun,fun _ => id,fun _ => .inl hrequest⟩
  | done _ hbefore =>
    refine ⟨rfl,nofun,fun _ => List.mem_cons_of_mem _,?_⟩
    rcases hbefore with ⟨_,hrequest,_⟩ | hwaiting
    · exact fun _ => .inl hrequest
    · exact haway hwaiting nofun
  | pendingRejected found _ h =>
    obtain ⟨_,hadmitted,_,_,hstate⟩ := h.channels_same
    exact ⟨hadmitted,(fun heq => nomatch hstate _ heq),h.log,haway rfl nofun⟩
  | channelsClosed found _ h => exact ⟨h.channels.2.1,h.not_handling,h.log,haway rfl nofun⟩
  | tasksOver => exact ⟨rfl,nofun,fun _ => List.mem_cons_of_mem _,haway rfl nofun⟩

theorem behind_step {a : HostAction} {s₁ : HostLoop} (hs : Behind s₁ s) (hreceived : Received s) (h : step cfg s a = some s') : Behind s₁ s' := by
  rcases step_cases h hreceived with ⟨n,request,signal,before,u,state,hstarts,hturn,rfl⟩ | hother
  · obtain ⟨hadmitted,hhandling,hlog,haway⟩ := behind_turn hstarts hturn hs.closed
    refine ⟨hturn.closed hs.closed,hadmitted.trans hs.admitted,fun k hk => ?_,fun k hk => ?_,fun t ht => hlog t (hs.log t ht)⟩
    · exact hs.handling k (suspended_of_conclude hturn.calls hhandling hk)
    · intro request' state' hcall
      rw [calls_conclude hturn.calls] at hcall
      split at hcall
      · rename_i heq
        obtain ⟨rfl,rfl⟩ := HostCall.mk.inj (Option.some.inj hcall)
        exact haway (heq ▸ hs.away k hk)
      · exact hs.away k hk request' state' hcall
  · obtain ⟨hadmitted,_,hlog,_⟩ := hother.same
    refine ⟨hother.host ▸ hs.closed,hadmitted.trans hs.admitted,fun k hk => ?_,fun k hk => ?_,fun t ht => hlog t (hs.log t ht)⟩
    · rw [Suspended,hother.calls] at hk
      exact hs.handling k hk
    · intro request' state' hcall
      rw [hother.calls] at hcall
      exact hs.away k hk request' state' hcall

theorem behind_steps {s₁ : HostLoop} (hreach : ReachableWith (step cfg) CloseCancels Init s₁) (hclosed : s₁.host.closed)
    (h : Steps (step cfg) CloseCancels s₁ s) : Behind s₁ s := by
  have hboth : ReachableWith (step cfg) CloseCancels Init s ∧ Behind s₁ s := by
    refine h.invariant (I := fun s => ReachableWith (step cfg) CloseCancels Init s ∧ Behind s₁ s)
      (fun s a s' hs ha hstep => ⟨hs.1.tail ha hstep,behind_step hs.2 (reachable_received hs.1) hstep⟩) ⟨hreach,hclosed,rfl,fun _ => id,
        fun k hnone request state hcall => ?_,fun _ => id⟩
    rw [hnone] at hcall
    exact nomatch hcall
  exact hboth.2

/-- What `close` leaves when it returns. -/
theorem Life.ended (hs : Life s) (hm : .closed m ∈ s.log) : ∃ k snapshot, Claimed s k snapshot ∧ s.Rejected snapshot ∧
    (∀ c ∈ snapshot.channels, s.channelDone c) ∧ ∀ n ∈ snapshot.handlers, s.isOver n := by
  rcases hs.stage with hopened | ⟨k,snapshot,hclaimed,hprogress⟩
  · exact absurd hm (hopened.returned m)
  · have hdone := hclaimed.returned m hm
    cases hprogress with
    | rejecting _ hundone | closing _ hundone | awaiting _ _ hundone =>
      rw [hundone] at hdone
      exact nomatch hdone
    | done _ hrejected hchannels hhandlers => exact ⟨k,snapshot,hclaimed,hrejected,hchannels,hhandlers⟩

/-- The call that claims the shutdown records what it has found. -/
theorem close_snapshot {s₀ s₁ : HostLoop} {k : ℕ} (hopen : s₀.host.closed = false)
    (h : step cfg s₀ (.begin k .close) = some s₁) : s₁.host.closed ∧ .snapshot (s₀.takeSnapshot k) ∈ s₁.log := by
  simp only [step,Option.ite_none_right_eq_some,Option.some.injEq] at h
  obtain ⟨_,rfl⟩ := h
  have hnot : ¬s₀.host.closed := by simp [hopen]
  simp only [settle,conclude,beginCall,close,Run.get_bind,if_neg hnot,Run.modify_bind]
  by_cases hpending : (s₀.takeSnapshot k).pending = []
  · simp only [rejectPending,if_pos hpending]
    have hrest := closeRest k (s₀.takeSnapshot k) (s₀.claimClose k)
    exact ⟨hrest.closed.trans rfl,hrest.log _ List.mem_cons_self⟩
  · simp only [rejectPending,if_neg hpending,Run.modify_bind]
    exact ⟨rfl,List.mem_cons_self⟩

/-- Once a call of `close` has returned, every channel ever admitted is closed, with its transport; no handler is under
way; the sockets that still shake hands, and the ones that did so when the host was closed, have been closed; and from
then on nobody is admitted, no handler begins, and every new call of `accept` or `run` raises. In every history in which
only `close` cancels. -/
theorem shutdown_complete (h : ReachableWith (step cfg) CloseCancels Init s) (hm : .closed m ∈ s.log) :
    (∀ c ∈ s.admitted, ∃ loop, s.loops c = some loop ∧ loop.channel.closed ∧ loop.channel.closeDone ∧
      ChannelLoop.transportCloses loop.log = 1) ∧
    (∀ n, ¬s.Suspended n .handling) ∧
    (∀ n, s.handshaking n → ∃ code, .socketClose n code ∈ s.log) ∧
    (∀ s₀ k s₁, ReachableWith (step cfg) CloseCancels Init s₀ → s₀.host.closed = false →
      step cfg s₀ (.begin k .close) = some s₁ → Steps (step cfg) CloseCancels s₁ s →
        ∀ n, s₀.handshaking n → ∃ code, .socketClose n code ∈ s.log) ∧
    ∀ s', Steps (step cfg) CloseCancels s s' → s'.admitted = s.admitted ∧ (∀ n, ¬s'.Suspended n .handling) ∧
      ∀ n request state, s.calls n = none → s'.calls n = some { request, state } → request ≠ .close →
        ∃ e, state = .raised e ∨ state = .at (.rejecting false e) := by
  have hlife := reachable_life h
  obtain ⟨k,snapshot,hclaimed,hrejected,hchannels,hhandlers⟩ := hlife.ended hm
  have hhandling : ∀ n, ¬s.Suspended n .handling := by
    intro n hn
    have hover := hhandlers n (hclaimed.handlers n hn)
    rw [not_over hn] at hover
    exact nomatch hover
  refine ⟨fun c hc => ?_,hhandling,fun n hn => hrejected n (hclaimed.pending n hn),fun s₀ k' s₁ hs₀ hopen hstep hsteps n hn => ?_,
    fun s' hsteps => ?_⟩
  · have hdone := hclaimed.all_done hchannels c hc
    obtain ⟨loop,hloop,hdone⟩ := (Option.any_eq_true _ _).mp hdone
    have hreach := hlife.looped.reach c loop hloop
    have htransport := (ChannelLoop.reachable_attempted hreach).done hdone
    refine ⟨loop,hloop,?_,hdone,htransport⟩
    cases ChannelLoop.reachable_phase hreach with
    | fresh _ hundone =>
      rw [hundone] at hdone
      exact nomatch hdone
    | session _ _ _ _ hclosed | transport _ _ hclosed | done hclosed => exact hclosed
  · obtain ⟨hclosed,hfound⟩ := close_snapshot hopen hstep
    have hbehind := behind_steps (hs₀.tail (a := .begin k' .close) trivial hstep) hclosed hsteps
    have heq := hclaimed.found _ (hbehind.log _ hfound)
    refine hrejected n ?_
    rw [← heq]
    exact ((reachable_counted hs₀ hopen).pending n).mpr hn
  · have hbehind := behind_steps h hclaimed.closed hsteps
    refine ⟨hbehind.admitted,fun n hn => hhandling n (hbehind.handling n hn),fun n request state hnone hcall hrequest => ?_⟩
    exact (hbehind.away n hnone request state hcall).resolve_left hrequest

/-! A host with a handler and a pending socket. -/

def spaciousHost : HostConfig where
  sharedSecret := "secret"
  allowedOrigins := ["http://localhost"]
  isLoopback := fun address => address = "127.0.0.1"
  maxConnections := 2
  valid := by decide

def closeCancelsCheck (s : HostLoop) : HostAction → Bool
  | .resume n .cancelled => decide (n ∈ s.cancelled)
  | .channel _ (.resume _ .cancelled) => false
  | _ => true

theorem closeCancelsCheck_cancels (s : HostLoop) (a : HostAction) (h : closeCancelsCheck s a) : CloseCancels s a := by
  cases a with
  | resume n signal =>
    cases signal with
    | cancelled => exact show n ∈ s.cancelled from of_decide_eq_true h
    | _ => trivial
  | channel c action =>
    cases action with
    | resume use signal =>
      cases signal with
      | cancelled => exact nomatch h
      | _ => trivial
    | _ => trivial
  | _ => trivial

/-- `close` finds a handler and a pending socket. -/
def closingHost : List HostAction :=
  [.begin 0 (.run sampleAdmission),.resume 0 (.first sampleAuth),.begin 1 (.accept sampleAdmission),.begin 2 .close,
    .reject 1,.reject 1,.resume 2 .ready,.startCloser 0,.channel 0 (.resume .gathered .ready),.resume 2 .ready,
    .resume 1 .cancelled,.resume 0 .cancelled,.resume 0 .ready,.resume 2 .ready]

theorem shutdown_complete_handler : ∃ s, ReachableWith (step spaciousHost) CloseCancels Init s ∧ .closed 2 ∈ s.log ∧
    s.admitted = [0] ∧ s.channelClosed 0 ∧ ∀ n, ¬s.Suspended n .handling := by
  have hexec : ∃ s, exec (guarded (step spaciousHost) closeCancelsCheck) {} closingHost = some s ∧
      s.log.head? = some (.closed 2) ∧ s.admitted = [0] := ⟨_,rfl,rfl,rfl⟩
  obtain ⟨s,hs,hlog,hadmitted⟩ := hexec
  have hreach := exec_reachableWith _ closeCancelsCheck_cancels init_default hs
  have hm : .closed 2 ∈ s.log := List.mem_of_head? hlog
  obtain ⟨hclosed,hhandling,_,_,_⟩ := shutdown_complete hreach hm
  obtain ⟨loop,hloop,hchannel,_⟩ := hclosed 0 (by simp [hadmitted])
  exact ⟨s,hreach,hm,hadmitted,by simp [channelClosed,hloop,hchannel],hhandling⟩

end HostLoop
end Transports
end HarnessSdk
