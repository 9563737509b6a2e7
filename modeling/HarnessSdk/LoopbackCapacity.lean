import HarnessSdk.LoopbackSteps
import HarnessSdk.ChannelTeardown
import Mathlib.Data.List.Nodup

/-!
# Capacity of the loopback host

An open host never has more pending sockets and open channels than it may have. It counts the channels that it has not
discarded, and only `run` discards one.
-/

namespace HarnessSdk
namespace Transports

open Transition

def HostState.handshaking : HostState → Bool
  | .at .receiving => true
  | .at (.rejecting pending _) => pending
  | _ => false

/-- A point of `close` behind the claim. -/
def HostPoint.isStage : HostPoint → Bool
  | waiting | rejectingPending _ | closingChannels _ | awaitingTasks _ => true
  | _ => false

namespace HostLoop

variable {cfg : HostConfig} {n : ℕ} {s s' u v : HostLoop} {request : HostRequest} {signal : Option HostSignal}
  {before : Option HostPoint} {state : HostState}

/-- The socket has passed the first gate, and its call of `accept` is not over. -/
def handshaking (s : HostLoop) (n : ℕ) : Bool := (s.calls n).any fun call => call.state.handshaking

theorem CloseEnd.calls {snapshot : Snapshot} (h : CloseEnd n snapshot v u state) : u.calls = v.calls := by
  cases h <;> rfl

theorem CloseRest.calls {snapshot : Snapshot} (h : CloseRest n snapshot v u state) : u.calls = v.calls := by
  cases h with
  | channels => rfl
  | rest _ h => exact h.calls

theorem closeFinal_eq (s : HostLoop) (n code : ℕ) : s.closeFinal n code = { s with loops := (s.closeFinal n code).loops } := by
  unfold closeFinal
  split <;> rfl

/-- A turn leaves the points of the calls to its conclusion. -/
theorem Turn.calls (h : Turn cfg s n request signal before u state) : u.calls = s.calls := by
  cases h with
  | handled => rw [closeFinal_eq]
  | nothingPending _ _ h => exact h.calls
  | pendingRejected _ _ h => exact h.calls
  | channelsClosed _ _ h => exact h.calls
  | _ => rfl

theorem handshaking_conclude (hcalls : u.calls = s.calls) (m : ℕ) : (u.conclude n { request, state }).handshaking m =
    if m = n then state.handshaking else s.handshaking m := by
  simp only [handshaking,conclude,Function.update_apply,hcalls]
  split <;> rfl

theorem Other.calls {a : HostAction} (h : Other s a u) : u.calls = s.calls := by
  cases h <;> rfl

/-- A frame is received for a call of `accept` or `run`. -/
theorem received_step {a : HostAction} (hs : Received s) (h : step cfg s a = some s') : Received s' := by
  rcases step_cases h hs with ⟨n,request,signal,before,u,state,_,hturn,rfl⟩ | hother
  · intro m request' hm
    by_cases hne : m = n
    · subst hne
      simp only [conclude,Function.update_self,Option.some.injEq,HostCall.mk.injEq] at hm
      obtain ⟨rfl,rfl⟩ := hm
      generalize hstate : HostState.at .receiving = final at hturn
      cases hturn with
      | entered hrequest => exact hrequest
      | discarded _ _ hover => exact absurd hstate.symm (hover _)
      | nothingPending _ _ h | pendingRejected _ _ h =>
        cases h with
        | channels => exact nomatch hstate
        | rest _ h => cases h <;> exact nomatch hstate
      | channelsClosed _ _ h => cases h <;> exact nomatch hstate
      | _ => exact nomatch hstate
    · simp only [conclude,Function.update_of_ne hne,hturn.calls] at hm
      exact hs m request' hm
  · intro m request' hm
    rw [hother.calls] at hm
    exact hs m request' hm

theorem reachable_received {ok : HostLoop → HostAction → Prop} (h : ReachableWith (step cfg) ok Init s) : Received s := by
  refine h.invariant (fun s hs => ?_) fun s a s' hs _ hstep => received_step hs hstep
  obtain rfl := hs
  exact nofun

/-- A channel that has been admitted is registered as long as it is not closed, and a socket is pending as long as it
shakes hands. -/
structure Counted (cfg : HostConfig) (s : HostLoop) : Prop where
  pending : ∀ m, m ∈ s.host.pending ↔ s.handshaking m
  admitted : ∀ c, c ∈ s.admitted ↔ (s.loops c).isSome
  begun : ∀ c ∈ s.admitted, s.calls c ≠ none ∧ s.handshaking c = false
  registered : ∀ c ∈ s.host.channels, c ∈ s.admitted
  released : ∀ c ∈ s.admitted, c ∈ s.host.channels ∨ s.channelClosed c
  closing : ∀ m request behind, s.calls m = some { request, state := .at (.closing behind) } → s.channelClosed m
  handling : ∀ m request, s.calls m = some { request, state := .at .handling } → m ∈ s.admitted
  channels_nodup : s.host.channels.Nodup
  pending_nodup : s.host.pending.Nodup
  admitted_nodup : s.admitted.Nodup
  room : s.host.channels.length + s.host.pending.length ≤ cfg.maxConnections

@[simp] theorem conclude_host (call : HostCall) : (u.conclude n call).host = u.host := rfl
@[simp] theorem conclude_admitted (call : HostCall) : (u.conclude n call).admitted = u.admitted := rfl
@[simp] theorem conclude_loops (call : HostCall) : (u.conclude n call).loops = u.loops := rfl
@[simp] theorem conclude_channelClosed (call : HostCall) (c : ℕ) :
    (u.conclude n call).channelClosed c = u.channelClosed c := rfl

theorem calls_conclude (hcalls : u.calls = s.calls) (m : ℕ) : (u.conclude n { request, state }).calls m =
    if m = n then some { request, state } else s.calls m := by
  simp only [conclude,Function.update_apply,hcalls]

/-- A change that leaves the host as it is, and closes channels at most. -/
theorem Counted.keep (hs : Counted cfg s) (hhost : v.host = s.host) (hadmitted : v.admitted = s.admitted)
    (hsome : ∀ c, (v.loops c).isSome = (s.loops c).isSome) (hclosed : ∀ c, s.channelClosed c → v.channelClosed c)
    (hhandshaking : ∀ m, v.handshaking m = s.handshaking m) (hbegun : ∀ m, s.calls m ≠ none → v.calls m ≠ none)
    (hclosing : ∀ m request behind, v.calls m = some { request, state := .at (.closing behind) } → v.channelClosed m)
    (hhandling : ∀ m request, v.calls m = some { request, state := .at .handling } → m ∈ s.admitted) : Counted cfg v where
  pending m := by rw [hhost,hhandshaking,hs.pending m]
  admitted c := by rw [hadmitted,hsome,hs.admitted c]
  begun c hc := by
    obtain ⟨hcall,hdone⟩ := hs.begun c (hadmitted ▸ hc)
    rw [hhandshaking]
    exact ⟨hbegun c hcall,hdone⟩
  registered c hc := hadmitted ▸ hs.registered c (hhost ▸ hc)
  released c hc := by
    rw [hhost]
    exact (hs.released c (hadmitted ▸ hc)).imp_right (hclosed c)
  closing := hclosing
  handling m request hm := hadmitted ▸ hhandling m request hm
  channels_nodup := hhost ▸ hs.channels_nodup
  pending_nodup := hhost ▸ hs.pending_nodup
  admitted_nodup := hadmitted ▸ hs.admitted_nodup
  room := hhost ▸ hs.room

/-- A turn that leaves the host as it is, and neither enters nor leaves a handshake. -/
theorem Counted.conclude (hs : Counted cfg s) (hhost : u.host = s.host) (hadmitted : u.admitted = s.admitted)
    (hsome : ∀ c, (u.loops c).isSome = (s.loops c).isSome) (hclosed : ∀ c, s.channelClosed c → u.channelClosed c)
    (hcalls : u.calls = s.calls) (hsame : state.handshaking = s.handshaking n)
    (hclosing : ∀ behind, state = .at (.closing behind) → u.channelClosed n) (hhandling : state ≠ .at .handling) :
    Counted cfg (u.conclude n { request, state }) := by
  refine hs.keep hhost hadmitted hsome hclosed (fun m => ?_) (fun m hm => ?_) (fun m request' behind hm => ?_)
    fun m request' hm => ?_
  · rw [handshaking_conclude hcalls]
    split
    · rename_i heq
      rw [heq]
      exact hsame
    · rfl
  · rw [calls_conclude hcalls]
    split
    · exact nofun
    · exact hm
  · rw [calls_conclude hcalls] at hm
    split at hm
    · rename_i heq
      subst heq
      exact hclosing behind (congrArg HostCall.state (Option.some.inj hm))
    · exact hclosed m (hs.closing m request' behind hm)
  · rw [calls_conclude hcalls] at hm
    split at hm
    · exact absurd (congrArg HostCall.state (Option.some.inj hm)) hhandling
    · exact hs.handling m request' hm

/-- A call that begins shakes no hands yet. -/
theorem not_handshaking (hcall : s.calls n = none) : s.handshaking n = false := by simp [handshaking,hcall]

theorem handshaking_at {point : HostPoint} (hcall : s.calls n = some { request, state := .at point }) :
    s.handshaking n = (HostState.at point).handshaking := by simp [handshaking,hcall]

theorem counted_entered (hs : Counted cfg s) (hcall : s.calls n = none)
    (hroom : s.host.channels.length + s.host.pending.length < cfg.maxConnections) (hhost : u.host = (s.enter n).host)
    (hadmitted : u.admitted = s.admitted) (hloops : u.loops = s.loops) (hcalls : u.calls = s.calls)
    (hstate : state.handshaking) : Counted cfg (u.conclude n { request, state }) := by
  have hnew : n ∉ s.host.pending := by
    rw [hs.pending,not_handshaking hcall]
    simp
  have hpending : u.host.pending = n :: s.host.pending := by
    rw [hhost]
    exact List.insert_of_not_mem hnew
  have hchannels : u.host.channels = s.host.channels := by
    rw [hhost]
    rfl
  have hclosed : ∀ c, u.channelClosed c = s.channelClosed c := by
    intro c
    simp only [channelClosed,hloops]
  have hfresh : n ∉ s.admitted := fun hin => (hs.begun n hin).1 hcall
  have hpoint : ∀ m request' point, (HostState.at point).handshaking = false →
      (u.conclude n { request, state }).calls m = some { request := request', state := .at point } →
      s.calls m = some { request := request', state := .at point } := by
    intro m request' point hpoint hm
    rw [calls_conclude hcalls] at hm
    split at hm
    · have heq : state = .at point := congrArg HostCall.state (Option.some.inj hm)
      rw [heq,hpoint] at hstate
      cases hstate
    · exact hm
  refine ⟨fun m => ?_,fun c => ?_,fun c hc => ?_,fun c hc => ?_,fun c hc => ?_,fun m request' behind hm => ?_,
    fun m request' hm => ?_,?_,?_,?_,?_⟩
  · rw [handshaking_conclude hcalls,conclude_host,hpending,List.mem_cons]
    split
    · rename_i heq
      exact iff_of_true (.inl heq) hstate
    · rename_i hne
      rw [or_iff_right hne]
      exact hs.pending m
  · rw [conclude_admitted,conclude_loops,hadmitted,hloops]
    exact hs.admitted c
  · have hin : c ∈ s.admitted := hadmitted ▸ hc
    have hne : c ≠ n := fun heq => hfresh (heq ▸ hin)
    rw [handshaking_conclude hcalls,calls_conclude hcalls,if_neg hne,if_neg hne]
    exact hs.begun c hin
  · have hin : c ∈ s.host.channels := hchannels ▸ hc
    exact hadmitted ▸ hs.registered c hin
  · rw [conclude_host,conclude_channelClosed,hchannels,hclosed]
    exact hs.released c (hadmitted ▸ hc)
  · rw [conclude_channelClosed,hclosed]
    exact hs.closing m request' behind (hpoint m request' _ rfl hm)
  · exact hadmitted ▸ hs.handling m request' (hpoint m request' _ rfl hm)
  · exact hchannels ▸ hs.channels_nodup
  · rw [conclude_host,hpending]
    exact List.nodup_cons.mpr ⟨hnew,hs.pending_nodup⟩
  · exact hadmitted ▸ hs.admitted_nodup
  · rw [conclude_host,hpending,hchannels,List.length_cons]
    omega

/-- A point that is found behind a turn, and is not the one that the turn has come to. -/
theorem calls_of_conclude {m : ℕ} {request' : HostRequest} {point : HostPoint} (hcalls : u.calls = s.calls)
    (hstate : state ≠ .at point)
    (hm : (u.conclude n { request, state }).calls m = some { request := request', state := .at point }) :
    s.calls m = some { request := request', state := .at point } := by
  rw [calls_conclude hcalls] at hm
  split at hm
  · exact absurd (congrArg HostCall.state (Option.some.inj hm)) hstate
  · exact hm

theorem counted_left (hs : Counted cfg s) (e : HostExn) :
    Counted cfg ((s.dropPending n).conclude n { request, state := .raised e }) := by
  have hcalls : (s.dropPending n).calls = s.calls := rfl
  have hraised : ∀ point, HostState.raised e ≠ .at point := fun _ => nofun
  refine ⟨fun m => ?_,hs.admitted,fun c hc => ?_,hs.registered,hs.released,fun m request' behind hm => ?_,
    fun m request' hm => ?_,hs.channels_nodup,hs.pending_nodup.erase n,hs.admitted_nodup,?_⟩
  · rw [handshaking_conclude hcalls,conclude_host]
    change m ∈ s.host.pending.erase n ↔ _
    rw [hs.pending_nodup.mem_erase_iff,hs.pending m]
    split
    · rename_i heq
      exact iff_of_false (fun hm => hm.1 heq) (by simp [HostState.handshaking])
    · rename_i hne
      exact and_iff_right hne
  · have hin : c ∈ s.admitted := hc
    obtain ⟨hbegun,hdone⟩ := hs.begun c hin
    rw [handshaking_conclude hcalls,calls_conclude hcalls]
    split
    · exact ⟨nofun,rfl⟩
    · exact ⟨hbegun,hdone⟩
  · exact hs.closing m request' behind (calls_of_conclude hcalls (hraised _) hm)
  · exact hs.handling m request' (calls_of_conclude hcalls (hraised _) hm)
  · have hlength : (s.host.pending.erase n).length ≤ s.host.pending.length := List.length_erase_le
    have hroom := hs.room
    change s.host.channels.length + (s.host.pending.erase n).length ≤ _
    omega

/-- An admitted socket takes a channel for its place among the pending ones. -/
theorem counted_admitted (hs : Counted cfg s) (hhandshaking : s.handshaking n)
    (hhost : u.host.channels = ((s.addChannel cfg n).dropPending n).host.channels)
    (hhost' : u.host.pending = ((s.addChannel cfg n).dropPending n).host.pending)
    (hadmitted : u.admitted = n :: s.admitted) (hloops : u.loops = (s.addChannel cfg n).loops) (hcalls : u.calls = s.calls)
    (hstate : state = .returned ∨ state = .at .handling) : Counted cfg (u.conclude n { request, state }) := by
  have hpending : n ∈ s.host.pending := (hs.pending n).mpr hhandshaking
  have hnew : n ∉ s.admitted := by
    intro hin
    rw [(hs.begun n hin).2] at hhandshaking
    cases hhandshaking
  have hunregistered : n ∉ s.host.channels := fun hin => hnew (hs.registered n hin)
  have hchannels : u.host.channels = n :: s.host.channels := by
    rw [hhost]
    exact List.insert_of_not_mem hunregistered
  have herase : u.host.pending = s.host.pending.erase n := hhost'
  have hplain : state.handshaking = false := by rcases hstate with rfl | rfl <;> rfl
  have hloop : ∀ c, c ≠ n → u.loops c = s.loops c := by
    intro c hne
    rw [hloops]
    exact Function.update_of_ne hne _ _
  have hself : (u.loops n).isSome := by
    rw [hloops]
    simp [addChannel,setLoop]
  have hclosing : ∀ behind, state ≠ .at (.closing behind) := by rcases hstate with rfl | rfl <;> simp
  refine ⟨fun m => ?_,fun c => ?_,fun c hc => ?_,fun c hc => ?_,fun c hc => ?_,fun m request' behind hm => ?_,
    fun m request' hm => ?_,?_,?_,?_,?_⟩
  · rw [handshaking_conclude hcalls,conclude_host,herase,hs.pending_nodup.mem_erase_iff,hs.pending m]
    split
    · rename_i heq
      exact iff_of_false (fun hm => hm.1 heq) (by simp [hplain])
    · rename_i hne
      exact and_iff_right hne
  · rw [conclude_admitted,conclude_loops,hadmitted,List.mem_cons]
    by_cases hne : c = n
    · subst hne
      exact iff_of_true (.inl rfl) hself
    · rw [or_iff_right hne,hloop c hne]
      exact hs.admitted c
  · rw [conclude_admitted,hadmitted] at hc
    rw [handshaking_conclude hcalls,calls_conclude hcalls]
    rcases List.mem_cons.mp hc with rfl | hin
    · rw [if_pos rfl,if_pos rfl]
      exact ⟨(by simp),hplain⟩
    · have hne : c ≠ n := fun heq => hnew (heq ▸ hin)
      rw [if_neg hne,if_neg hne]
      exact hs.begun c hin
  · rw [conclude_host,hchannels] at hc
    rw [conclude_admitted,hadmitted]
    rcases List.mem_cons.mp hc with rfl | hin
    · exact List.mem_cons_self
    · exact List.mem_cons_of_mem _ (hs.registered c hin)
  · rw [conclude_admitted,hadmitted] at hc
    rw [conclude_host,conclude_channelClosed,hchannels]
    rcases List.mem_cons.mp hc with rfl | hin
    · exact .inl List.mem_cons_self
    · have hne : c ≠ n := fun heq => hnew (heq ▸ hin)
      rw [channelClosed,hloop c hne]
      exact (hs.released c hin).imp_left (List.mem_cons_of_mem _)
  · have hold := hs.closing m request' behind (calls_of_conclude hcalls (hclosing behind) hm)
    have hne : m ≠ n := by
      rintro rfl
      have hnone : s.loops m = none := by
        rw [← Option.not_isSome_iff_eq_none,← hs.admitted m]
        exact hnew
      rw [channelClosed,hnone] at hold
      cases hold
    rw [conclude_channelClosed,channelClosed,hloop m hne]
    exact hold
  · rw [conclude_admitted,hadmitted]
    rw [calls_conclude hcalls] at hm
    split at hm
    · rename_i heq
      exact List.mem_cons.mpr (.inl heq)
    · exact List.mem_cons_of_mem _ (hs.handling m request' hm)
  · rw [conclude_host,hchannels]
    exact List.nodup_cons.mpr ⟨hunregistered,hs.channels_nodup⟩
  · rw [conclude_host,herase]
    exact hs.pending_nodup.erase n
  · rw [conclude_admitted,hadmitted]
    exact List.nodup_cons.mpr ⟨hnew,hs.admitted_nodup⟩
  · have hlength := List.length_erase_of_mem hpending
    have hpositive := List.length_pos_of_mem hpending
    have hroom := hs.room
    rw [conclude_host,hchannels,herase,List.length_cons,hlength]
    omega

theorem counted_discarded (hs : Counted cfg s) (hclosed : s.channelClosed n) (hhandshaking : s.handshaking n = false)
    (hcall : s.calls n ≠ none) (hstate : ∀ point, state ≠ .at point) :
    Counted cfg ((s.discard n).conclude n { request, state }) := by
  have hcalls : (s.discard n).calls = s.calls := rfl
  have hplain : state.handshaking = false := by
    cases state with
    | «at» point => exact absurd rfl (hstate point)
    | returned | raised => rfl
  have hsame : ∀ m, ((s.discard n).conclude n { request, state }).handshaking m = s.handshaking m := by
    intro m
    rw [handshaking_conclude hcalls]
    split
    · rename_i heq
      rw [heq,hplain,hhandshaking]
    · rfl
  refine ⟨fun m => ?_,hs.admitted,fun c hc => ?_,fun c hc => ?_,fun c hc => ?_,fun m request' behind hm => ?_,
    fun m request' hm => ?_,hs.channels_nodup.erase n,hs.pending_nodup,hs.admitted_nodup,?_⟩
  · rw [hsame]
    exact hs.pending m
  · obtain ⟨hbegun,hdone⟩ := hs.begun c hc
    rw [hsame,calls_conclude hcalls]
    refine ⟨?_,hdone⟩
    split
    · exact nofun
    · exact hbegun
  · exact hs.registered c (List.mem_of_mem_erase hc)
  · rw [conclude_channelClosed]
    by_cases hne : c = n
    · subst hne
      exact .inr hclosed
    · exact (hs.released c hc).imp_left (List.mem_erase_of_ne hne).mpr
  · exact hs.closing m request' behind (calls_of_conclude hcalls (hstate _) hm)
  · exact hs.handling m request' (calls_of_conclude hcalls (hstate _) hm)
  · have hlength : (s.host.channels.erase n).length ≤ s.host.channels.length := List.length_erase_le
    have hroom := hs.room
    change (s.host.channels.erase n).length + s.host.pending.length ≤ _
    omega

/-- The channel of a call whose handler has come to its end is closed. -/
theorem closeFinal_closed (hn : n ∈ s.admitted) (hs : Counted cfg s) (code : ℕ) : (s.closeFinal n code).channelClosed n := by
  obtain ⟨loop,hloop⟩ := Option.isSome_iff_exists.mp ((hs.admitted n).mp hn)
  simp only [closeFinal,hloop,channelClosed,setLoop,Function.update_self,Option.any_some]
  exact ChannelLoop.close_closed _ _

theorem setLoop_isSome {c : ℕ} {loop loop' : ChannelLoop ChannelUse HostTask} (hloop : s.loops c = some loop) (m : ℕ) :
    ((s.setLoop c loop').loops m).isSome = (s.loops m).isSome := by
  by_cases hne : m = c
  · subst hne
    simp [setLoop,hloop]
  · simp [setLoop,Function.update_of_ne hne]

theorem setLoop_closed {c : ℕ} {loop loop' : ChannelLoop ChannelUse HostTask} (hloop : s.loops c = some loop)
    (hclosed : loop.channel.closed → loop'.channel.closed) (m : ℕ) (hm : s.channelClosed m) :
    (s.setLoop c loop').channelClosed m := by
  by_cases hne : m = c
  · subst hne
    simp only [channelClosed,hloop,Option.any_some] at hm
    simpa [channelClosed,setLoop] using hclosed hm
  · simpa [channelClosed,setLoop,Function.update_of_ne hne] using hm

theorem CloseEnd.closed {snapshot : Snapshot} (h : CloseEnd n snapshot v u state) : u.host.closed = v.host.closed := by
  cases h <;> rfl

theorem CloseRest.closed {snapshot : Snapshot} (h : CloseRest n snapshot v u state) : u.host.closed = v.host.closed := by
  cases h with
  | channels => rfl
  | rest _ h => exact h.closed

/-- The host is closed for good. -/
theorem Turn.closed (h : Turn cfg s n request signal before u state) (hs : s.host.closed) : u.host.closed := by
  cases h with
  | handled => rwa [closeFinal_eq]
  | rejecting => rfl
  | nothingPending _ _ h =>
    rw [h.closed]
    rfl
  | pendingRejected _ _ h => rwa [h.closed]
  | channelsClosed _ _ h => rwa [h.closed]
  | _ => exact hs

/-- The stages of `close` come behind the claim. -/
def Staged (s : HostLoop) : Prop :=
  ∀ n request point, s.calls n = some { request, state := .at point } → point.isStage → s.host.closed

theorem Turn.staged {point : HostPoint} (h : Turn cfg s n request signal before u state)
    (hbefore : ∀ point, before = some point → point.isStage → s.host.closed) (hstate : state = .at point)
    (hpoint : point.isStage) : u.host.closed := by
  cases h with
  | waits _ hclosed => exact hclosed
  | rejecting => rfl
  | nothingPending _ _ h =>
    rw [h.closed]
    rfl
  | pendingRejected _ _ h =>
    rw [h.closed]
    exact hbefore _ rfl rfl
  | channelsClosed _ _ h =>
    rw [h.closed]
    exact hbefore _ rfl rfl
  | discarded _ _ hover => exact absurd hstate (hover _)
  | gateClosed | gateBusy | entered | misrouted | rejected | secondBusy | running | handled =>
    obtain rfl := HostState.at.inj hstate
    exact nomatch hpoint
  | left | refused | accepted | unreturned | done | unwaited | tasksOver | closeRaised => exact nomatch hstate

theorem Starts.point {a : HostAction} (h : Starts s n request a signal before) {point : HostPoint}
    (hpoint : before = some point) : s.calls n = some { request, state := .at point } := by
  cases h with
  | begin => exact nomatch hpoint
  | resume _ _ h =>
    obtain rfl := Option.some.inj hpoint
    exact h

theorem Other.host {a : HostAction} (h : Other s a u) : u.host = s.host := by
  cases h <;> rfl

theorem reachable_staged {ok : HostLoop → HostAction → Prop} (h : ReachableWith (step cfg) ok Init s) : Staged s := by
  refine h.invariant_with (J := Received) (fun s hr => reachable_received hr) (fun s hs => ?_)
    fun s a s' hreceived hs _ hstep => ?_
  · obtain rfl := hs
    exact nofun
  · rcases step_cases hstep hreceived with ⟨n,request,signal,before,u,state,hstarts,hturn,rfl⟩ | hother
    · intro m request' point hm hpoint
      rw [calls_conclude hturn.calls] at hm
      split at hm
      · have hstate : state = .at point := congrArg HostCall.state (Option.some.inj hm)
        exact hturn.staged (fun p hp hstage => hs n request p (hstarts.point hp) hstage) hstate hpoint
      · exact hturn.closed (hs m request' point hm hpoint)
    · intro m request' point hm hpoint
      rw [hother.calls] at hm
      rw [hother.host]
      exact hs m request' point hm hpoint

theorem counted_turn {a : HostAction} (hstarts : Starts s n request a signal before)
    (h : Turn cfg s n request signal before u state) (hstaged : Staged s) (hopen : u.host.closed = false)
    (hs : Counted cfg s) : Counted cfg (u.conclude n { request, state }) := by
  have hstage : ∀ point, before = some point → point.isStage = false := by
    intro point hpoint
    by_contra hstage
    rw [h.closed (hstaged n request point (hstarts.point hpoint) (by simpa using hstage))] at hopen
    cases hopen
  have hnone : before = none → s.calls n = none := by
    intro hbefore
    cases hstarts with
    | begin hcall => exact hcall
    | resume => cases hbefore
  have hcall : ∀ point, before = some point → s.calls n = some { request, state := .at point } := fun _ => hstarts.point
  have hkept : ∀ {v : HostLoop} {state : HostState}, v.host = s.host → v.loops = s.loops → v.admitted = s.admitted →
      v.calls = s.calls → state.handshaking = s.handshaking n → (∀ behind, state ≠ .at (.closing behind)) →
      state ≠ .at .handling → Counted cfg (v.conclude n { request, state }) := by
    intro v state hhost hloops hadmitted hcalls hsame hclosing hhandling
    refine hs.conclude hhost hadmitted (fun c => by rw [hloops]) (fun c hc => ?_) hcalls hsame
      (fun behind hstate => absurd hstate (hclosing behind)) hhandling
    simpa [channelClosed,hloops] using hc
  cases h with
  | gateClosed _ hclosed | waits _ hclosed =>
    rw [show s.host.closed = false from hopen] at hclosed
    cases hclosed
  | gateBusy => exact hkept rfl rfl rfl rfl (not_handshaking (hnone rfl)).symm (by simp) (by simp)
  | entered _ _ hroom => exact counted_entered hs (hnone rfl) hroom rfl rfl rfl rfl rfl
  | misrouted _ _ _ hroom => exact counted_entered hs (hnone rfl) hroom rfl rfl rfl rfl rfl
  | rejected | secondBusy => exact hkept rfl rfl rfl rfl (handshaking_at (hcall _ rfl)).symm (by simp) (by simp)
  | left => exact counted_left hs _
  | refused => exact hkept rfl rfl rfl rfl (handshaking_at (hcall _ rfl)).symm (by simp) (by simp)
  | accepted => exact counted_admitted hs (handshaking_at (hcall _ rfl)) rfl rfl rfl rfl rfl (.inl rfl)
  | running => exact counted_admitted hs (handshaking_at (hcall _ rfl)) rfl rfl rfl rfl rfl (.inr rfl)
  | handled behind =>
    have hin := hs.handling n request (hcall _ rfl)
    obtain ⟨loop,hloop⟩ := Option.isSome_iff_exists.mp ((hs.admitted n).mp hin)
    have hfinal : s.closeFinal n 1000 = s.setLoop n
        (ChannelLoop.settle .final (.call n) (ChannelLoop.close .final (.call n) (some 1000) none) loop) := by
      simp only [closeFinal,hloop]
    have hclosed := closeFinal_closed hin hs 1000
    rw [hfinal] at hclosed ⊢
    exact hs.conclude rfl rfl (setLoop_isSome hloop) (setLoop_closed hloop fun _ => ChannelLoop.close_closed _ _) rfl
      (handshaking_at (hcall _ rfl)).symm (fun _ _ => hclosed) (by simp)
  | discarded behind _ hstate =>
    have hpoint := hcall _ rfl
    exact counted_discarded hs (hs.closing n request behind hpoint) (handshaking_at hpoint) (by rw [hpoint]; simp) hstate
  | unreturned _ hpoint =>
    rcases hpoint with rfl | ⟨behind,rfl⟩ <;>
      exact hkept rfl rfl rfl rfl (handshaking_at (hcall _ rfl)).symm (by simp) (by simp)
  | done _ hbefore =>
    rcases hbefore with ⟨rfl,_,hclosed⟩ | rfl
    · rw [show s.host.closed = false from hopen] at hclosed
      cases hclosed
    · cases hstage _ rfl
  | rejecting => cases hopen
  | nothingPending _ _ h =>
    rw [h.closed] at hopen
    cases hopen
  | unwaited | pendingRejected | channelsClosed | tasksOver => cases hstage _ rfl
  | closeRaised _ hpoint =>
    rcases hpoint with ⟨snapshot,rfl | rfl⟩ | ⟨tasks,rfl⟩ <;> cases hstage _ rfl

theorem counted_other {a : HostAction} (h : Other s a u) (hs : Counted cfg s) : Counted cfg u := by
  have hkept : ∀ {v : HostLoop}, v.host = s.host → v.admitted = s.admitted → v.calls = s.calls →
      (∀ m, (v.loops m).isSome = (s.loops m).isSome) → (∀ m, s.channelClosed m → v.channelClosed m) → Counted cfg v := by
    intro v hhost hadmitted hcalls hsome hclosed
    refine hs.keep hhost hadmitted hsome hclosed (fun m => by simp [handshaking,hcalls]) (fun m hm => by rwa [hcalls])
      (fun m request' behind hm => ?_) fun m request' hm => ?_
    · rw [hcalls] at hm
      exact hclosed m (hs.closing m request' behind hm)
    · rw [hcalls] at hm
      exact hs.handling m request' hm
  cases h with
  | used c k task loop loop' action hloop _ _ hstep =>
    exact hkept rfl rfl rfl (setLoop_isSome hloop) (setLoop_closed hloop (ChannelLoop.closed_step hstep))
  | goesOn c loop loop' action hloop _ hstep =>
    exact hkept rfl rfl rfl (setLoop_isSome hloop) (setLoop_closed hloop (ChannelLoop.closed_step hstep))
  | closing c loop loop' _ hloop hstep =>
    exact hkept rfl rfl rfl (setLoop_isSome hloop) (setLoop_closed hloop (ChannelLoop.closed_step hstep))
  | rejecting | rejected => exact hkept rfl rfl rfl (fun _ => rfl) fun _ => id

theorem reachable_counted {ok : HostLoop → HostAction → Prop} (h : ReachableWith (step cfg) ok Init s) :
    s.host.closed = false → Counted cfg s := by
  refine h.invariant_with (I := fun s => s.host.closed = false → Counted cfg s) (J := fun s => Received s ∧ Staged s)
    (fun s hr => ⟨reachable_received hr,reachable_staged hr⟩) (fun s hs _ => ?_) fun s a s' hj hs _ hstep hopen => ?_
  · obtain rfl := hs
    exact ⟨fun m => by simp [handshaking],fun c => by simp,nofun,nofun,nofun,nofun,nofun,.nil,.nil,.nil,Nat.zero_le _⟩
  · obtain ⟨hreceived,hstaged⟩ := hj
    rcases step_cases hstep hreceived with ⟨n,request,signal,before,u,state,hstarts,hturn,rfl⟩ | hother
    · have hopen' : u.host.closed = false := hopen
      have hold : s.host.closed = false := by
        by_contra hclosed
        rw [hturn.closed (by simpa using hclosed)] at hopen'
        exact nomatch hopen'
      exact counted_turn hstarts hturn hstaged hopen' (hs hold)
    · rw [hother.host] at hopen
      exact counted_other hother (hs hopen)

theorem Counted.openChannels_le (hs : Counted cfg s) : s.openChannels.length ≤ s.host.channels.length := by
  have hnodup : s.openChannels.Nodup := hs.admitted_nodup.filter _
  refine (hnodup.subperm fun c hc => ?_).length_le
  obtain ⟨hin,hopen⟩ := List.mem_filter.mp hc
  rcases hs.released c hin with hregistered | hclosed
  · exact hregistered
  · simp [hclosed] at hopen

theorem Counted.le_openChannels (hs : Counted cfg s) (hopen : ∀ c ∈ s.host.channels, s.channelClosed c = false) :
    s.host.channels.length ≤ s.openChannels.length := by
  refine (hs.channels_nodup.subperm fun c hc => ?_).length_le
  exact List.mem_filter.mpr ⟨hs.registered c hc,by simp [hopen c hc]⟩

/-! Sockets that find the host full. -/

variable (cfg) in
/-- A socket that finds the host full finds none of the registered channels closed. -/
def Released (s : HostLoop) : HostAction → Prop
  | .begin _ (.accept _) | .begin _ (.run _) => cfg.maxConnections ≤ s.host.channels.length + s.host.pending.length →
    ∀ c ∈ s.host.channels, s.channelClosed c = false
  | _ => True

variable (cfg) in
def Justified (s : HostLoop) : Prop := ∀ m count, .busy m count ∈ s.log → cfg.maxConnections ≤ count

theorem busy_of_cons {m count : ℕ} {t : HostTrace} {log : List HostTrace} (h : .busy m count ∈ t :: log)
    (hne : HostTrace.busy m count ≠ t) : .busy m count ∈ log := by
  rcases List.mem_cons.mp h with heq | hold
  · exact absurd heq hne
  · exact hold

theorem CloseEnd.busy {snapshot : Snapshot} (h : CloseEnd n snapshot v u state) {m count : ℕ}
    (ht : .busy m count ∈ u.log) : .busy m count ∈ v.log := by
  cases h with
  | awaiting => exact ht
  | finished => exact busy_of_cons ht nofun

theorem CloseRest.busy {snapshot : Snapshot} (h : CloseRest n snapshot v u state) {m count : ℕ}
    (ht : .busy m count ∈ u.log) : .busy m count ∈ v.log := by
  cases h with
  | channels => exact ht
  | rest _ h => exact h.busy ht

/-- A socket finds the host full at one of the two gates. -/
theorem Turn.busy (h : Turn cfg s n request signal before u state) {m count : ℕ} (ht : .busy m count ∈ u.log) :
    .busy m count ∈ s.log ∨ count = s.liveCount ∧ s.host.closed = false ∧
      (before = none ∧ request ≠ .close ∧ cfg.maxConnections ≤ s.host.channels.length + s.host.pending.length ∨
        before = some .receiving ∧ cfg.maxConnections ≤ s.host.channels.length) := by
  cases h with
  | gateClosed | misrouted | rejected => exact .inl (busy_of_cons ht nofun)
  | gateBusy _ hrequest hopen hfull =>
    rcases List.mem_cons.mp (busy_of_cons ht nofun) with heq | hold
    · exact .inr ⟨(HostTrace.busy.inj heq).2,hopen,.inl ⟨rfl,hrequest,hfull⟩⟩
    · exact .inl hold
  | secondBusy _ _ hopen hfull =>
    rcases List.mem_cons.mp (busy_of_cons ht nofun) with heq | hold
    · exact .inr ⟨(HostTrace.busy.inj heq).2,hopen,.inr ⟨rfl,hfull⟩⟩
    · exact .inl hold
  | handled =>
    rw [closeFinal_eq] at ht
    exact .inl ht
  | done | tasksOver => exact .inl (busy_of_cons ht nofun)
  | rejecting => exact .inl (busy_of_cons ht nofun)
  | nothingPending _ _ h => exact .inl (busy_of_cons (h.busy ht) nofun)
  | pendingRejected _ _ h => exact .inl (h.busy ht)
  | channelsClosed _ _ h => exact .inl (h.busy ht)
  | _ => exact .inl ht

theorem Other.busy {a : HostAction} (h : Other s a u) {m count : ℕ} (ht : .busy m count ∈ u.log) : .busy m count ∈ s.log := by
  cases h with
  | rejecting => exact busy_of_cons ht nofun
  | _ => exact ht

theorem reachable_justified (h : ReachableWith (step cfg) (Released cfg) Init s) : Justified cfg s := by
  refine h.invariant_with (J := fun s => Received s ∧ (s.host.closed = false → Counted cfg s))
    (fun s hr => ⟨reachable_received hr,reachable_counted hr⟩) (fun s hs => ?_) fun s a s' hj hs ha hstep => ?_
  · obtain rfl := hs
    exact nofun
  · obtain ⟨hreceived,hcounted⟩ := hj
    rcases step_cases hstep hreceived with ⟨n,request,signal,before,u,state,hstarts,hturn,rfl⟩ | hother
    · intro m count ht
      rcases hturn.busy ht with hold | ⟨rfl,hopen,hgate⟩
      · exact hs m count hold
      · have hcount := hcounted hopen
        rcases hgate with ⟨rfl,hrequest,hfull⟩ | ⟨rfl,hfull⟩
        · have hfree : ∀ c ∈ s.host.channels, s.channelClosed c = false := by
            cases hstarts
            cases request with
            | accept | run => exact ha hfull
            | close => exact absurd rfl hrequest
          have hlive := hcount.le_openChannels hfree
          rw [liveCount]
          omega
        · -- the socket itself is pending, so that the second gate has room for it
          have hpending : n ∈ s.host.pending := (hcount.pending n).mpr (handshaking_at (hstarts.point rfl))
          have hpositive := List.length_pos_of_mem hpending
          have hroom := hcount.room
          omega
    · exact fun m count ht => hs m count (hother.busy ht)

/-- An open host never has more pending handshakes and open channels than it may have, and it rejects a socket for its
capacity only when it has that many; in every history in which a socket that finds the host full finds no channel
closed that is still registered. -/
theorem capacity_counts_live (h : ReachableWith (step cfg) (Released cfg) Init s) :
    (s.host.closed = false → s.host.pending.length + s.openChannels.length ≤ cfg.maxConnections) ∧
    ∀ m count, .busy m count ∈ s.log → cfg.maxConnections ≤ count := by
  refine ⟨fun hopen => ?_,reachable_justified h⟩
  have hcounted := reachable_counted h hopen
  have hlive := hcounted.openChannels_le
  have hroom := hcounted.room
  omega

/-! A host for one connection. -/

def sampleHost : HostConfig where
  sharedSecret := "secret"
  allowedOrigins := ["http://localhost"]
  isLoopback := fun address => address = "127.0.0.1"
  maxConnections := 1
  valid := by decide

def sampleAdmission : Admission where
  path := localRealtimePath
  origin := some "http://localhost"
  peerHost := "127.0.0.1"

def sampleAuth : FirstFrame := .text
  { bytes := 64
    loads := .ok (.obj [("type",.str "local.auth"),("version",.str localRealtimeVersion),("secret",.str "secret")]) }

theorem init_default : Init ({} : HostLoop) := rfl

/-- The product closes the channel that it has been given. -/
def closingProduct : List HostAction :=
  [.begin 0 (.accept sampleAdmission),.resume 0 (.first sampleAuth),.channel 0 (.close (.product 0) (.other 0) (some 1000)),
    .channel 0 (.resume (.product 0) .ready)]

def releasedCheck (s : HostLoop) : HostAction → Bool
  | .begin _ .close => true
  | .begin _ _ => s.host.channels.all fun c => !s.channelClosed c
  | _ => true

theorem releasedCheck_released (s : HostLoop) (a : HostAction) (h : releasedCheck s a) : Released sampleHost s a := by
  cases a with
  | begin n request =>
    cases request with
    | accept admission | run admission =>
      intro _ c hc
      simpa using List.all_eq_true.mp h c hc
    | close => trivial
  | _ => trivial

theorem capacity_counts_live_full : ∃ s, ReachableWith (step sampleHost) (Released sampleHost) Init s ∧
    s.log = [.socketClose 1 1001,.busy 1 1] ∧ s.host.pending.length + s.openChannels.length = 1 ∧
    s.host.pending.length + s.openChannels.length ≤ sampleHost.maxConnections ∧ sampleHost.maxConnections ≤ 1 := by
  have hexec : ∃ s, exec (guarded (step sampleHost) releasedCheck) {} [.begin 0 (.accept sampleAdmission),
      .resume 0 (.first sampleAuth),.begin 1 (.accept sampleAdmission)] = some s ∧
      s.log = [.socketClose 1 1001,.busy 1 1] ∧ s.host.pending.length + s.openChannels.length = 1 ∧
      s.host.closed = false := ⟨_,rfl,rfl,rfl,rfl⟩
  obtain ⟨s,hs,hlog,hcount,hopen⟩ := hexec
  have hreach := exec_reachableWith _ releasedCheck_released init_default hs
  obtain ⟨hlive,hbusy⟩ := capacity_counts_live hreach
  exact ⟨s,hreach,hlog,hcount,hlive hopen,hbusy 1 1 (by rw [hlog]; simp)⟩

/-- The channel is closed, and the next socket is rejected for the capacity of a host that has nothing open. -/
theorem capacity_leaks : ∃ s, Reachable (step sampleHost) Init s ∧ s.host.closed = false ∧ .busy 1 0 ∈ s.log ∧
    sampleHost.maxConnections = 1 := by
  have hexec : ∃ s, exec (step sampleHost) {} (closingProduct ++
        [HostAction.begin 1 (.accept sampleAdmission)]) = some s ∧
      s.host.closed = false ∧ .busy 1 0 ∈ s.log := ⟨_,rfl,rfl,.tail _ (.head _)⟩
  obtain ⟨s,hs,hopen,hbusy⟩ := hexec
  exact ⟨s,exec_reachable _ init_default hs,hopen,hbusy,rfl⟩

end HostLoop
end Transports
end HarnessSdk
