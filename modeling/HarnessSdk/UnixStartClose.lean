import HarnessSdk.UnixHost

/-!
# Start and close of the Unix host

A host creates one server at most. It is closed, and its path removed, when a call of `close` returns, as long as no
`close` takes the shutdown while `start` is suspended in the creation.
-/

namespace HarnessSdk
namespace Transports

open Transition

/-- The stages of `close` behind its claim. -/
def UnixPoint.isTeardown : UnixPoint → Bool
  | closingServer _ | yielding _ | closingChannels .. | awaitingHandlers .. => true
  | _ => false

/-- A point at which a call creates the server, or tears the host down. -/
def UnixPoint.isHeld (point : UnixPoint) : Bool := decide (point = .creating) || point.isTeardown

def UnixState.isHeld : UnixState → Bool
  | .at point => point.isHeld
  | _ => false

/-- The teardown of the host is not cancelled, and nothing fails in it. -/
def UnixSignal.isSound (signal : UnixSignal) (point : UnixPoint) : Bool :=
  match signal with
  | cancelled => !point.isTeardown
  | ready removable => removable || !point.isTeardown
  | raised => match point with | .closingChannels .. => false | _ => true
  | _ => true

namespace UnixLoop

open Run

variable {cfg : UnixConfig} {n m task : ℕ} {s s' u v : UnixLoop} {request : UnixRequest} {before : Option UnixPoint}
  {signal : Option UnixSignal} {state : UnixState} {point : UnixPoint}

def Suspended (s : UnixLoop) (n : ℕ) (point : UnixPoint) : Prop := ∃ request, s.calls n = some { request, state := .at point }

/-- What concerns neither the server nor the path. -/
structure Same (s u : UnixLoop) : Prop where
  server : u.host.server = s.host.server
  shutdown : u.host.shutdown = s.host.shutdown
  closeDone : u.host.closeDone = s.host.closeDone
  path : u.path = s.path
  log : u.log = s.log
  calls : u.calls = s.calls

theorem same_self (s : UnixLoop) : Same s s := ⟨rfl,rfl,rfl,rfl,rfl,rfl⟩

/-- What a call does from one suspension to the next. -/
inductive Turn (s : UnixLoop) (n : ℕ) (request : UnixRequest) :
    Option UnixPoint → Option UnixSignal → UnixLoop → UnixState → Prop
  | aside {before : Option UnixPoint} {signal : Option UnixSignal} {u : UnixLoop} {state : UnixState} (hsame : Same s u)
      (hbefore : before.all fun point => !point.isHeld) (hstate : state.isHeld = false)
      (hclose : ∀ task, request = .close task → (state = .returned → s.host.closeDone) ∧
        ∀ point, state = .at point → ∃ behind, point = .waiting behind) :
      Turn s n request before signal u state
  | creates {signal : Option UnixSignal} (hrequest : ∀ task, request ≠ .close task) (hserver : s.host.server = none) (hopen : s.host.shutdown = false)
      (hpath : s.path = none) : Turn s n request none signal (s.create n) (.at .creating)
  | started {signal : Option UnixSignal} {u : UnixLoop} {state : UnixState} (hsame : Same (s.store n) u)
      (hstate : ∀ point, state ≠ .at point) : Turn s n request (some .creating) signal u state
  | abandoned {state : UnixState} : Turn s n request (some .creating) (some .cancelled) s state
  | late {signal : Option UnixSignal} {state : UnixState} (hshutdown : s.host.shutdown) :
      Turn s n request (some .creating) signal (s.store n) state
  | claimsNothing {signal : Option UnixSignal} (task : ℕ) (behind : Option UnixExn) (hrequest : request = .close task)
      (hopen : s.host.shutdown = false) (hserver : s.host.server = none) :
      Turn s n request none signal (s.claim task) (.at (.yielding behind))
  | claims {signal : Option UnixSignal} (task server : ℕ) (behind : Option UnixExn) (hrequest : request = .close task)
      (hopen : s.host.shutdown = false) (hserver : s.host.server = some server) :
      Turn s n request none signal ((s.claim task).observe (.serverClosed server)) (.at (.closingServer behind))
  | undone {signal : Option UnixSignal} (behind : Option UnixExn) (hopen : s.host.shutdown = false) :
      Turn s n request (some .creating) signal (((s.store n).claim n).observe (.serverClosed n)) (.at (.closingServer behind))
  | stage {signal : Option UnixSignal} {point next : UnixPoint} (hpoint : point.isTeardown) (hnext : next.isTeardown) :
      Turn s n request (some point) signal s (.at next)
  | ended {signal : Option UnixSignal} {point : UnixPoint} {state : UnixState} (hpoint : point.isTeardown)
      (hstate : ∀ point, state ≠ .at point) : Turn s n request (some point) signal s.unlink.setDone state
  | broken {given : UnixSignal} {point : UnixPoint} (e : UnixExn) (hpoint : point.isTeardown)
      (hsound : given.isSound point = false) : Turn s n request (some point) (some given) s.setDone (.raised e)

theorem leave_state (behind : Option UnixExn) (s : UnixLoop) : (leave behind s).state = s ∧
    ∀ point, stateOf (leave behind s) ≠ .at point := by
  cases behind <;> exact ⟨rfl,nofun⟩

theorem not_held (h : ∀ point, state ≠ .at point) : state.isHeld = false := by
  cases state with
  | «at» point => exact absurd rfl (h point)
  | returned | raised => rfl

theorem turn_close (hrequest : request = .close task) (hinside : s.host.closeOwner = some task → s.host.closeDone) :
    Turn s n request none signal (close task none s).state (stateOf (close task none s)) := by
  by_cases hshutdown : s.host.shutdown
  · simp only [close,get_bind,if_pos hshutdown]
    by_cases hdone : s.host.closeOwner = some task ∨ s.host.closeDone
    · rw [if_pos hdone]
      exact .aside (same_self s) rfl rfl fun _ _ => ⟨fun _ => hdone.elim hinside id,nofun⟩
    · rw [if_neg hdone]
      refine .aside (same_self s) rfl rfl fun _ _ => ⟨nofun,fun point hpoint => ⟨none,?_⟩⟩
      exact (UnixState.at.inj hpoint).symm
  · have hopen : s.host.shutdown = false := by simpa using hshutdown
    cases hserver : s.host.server with
    | none =>
      simp only [close,get_bind,if_neg hshutdown,modify_bind,hserver]
      exact .claimsNothing task none hrequest hopen hserver
    | some server =>
      simp only [close,get_bind,if_neg hshutdown,modify_bind,hserver]
      exact .claims task server none hrequest hopen hserver

/-- The call of `close` that `start` makes behind the creation. -/
theorem turn_undo (e : UnixExn) : Turn s n request (some .creating) signal (close n (some e) (s.store n)).state
    (stateOf (close n (some e) (s.store n))) := by
  by_cases hshutdown : s.host.shutdown
  · have hstored : (s.store n).host.shutdown = true := hshutdown
    simp only [close,get_bind,if_pos hstored]
    split <;> exact .late hshutdown
  · have hstored : ¬(s.store n).host.shutdown := hshutdown
    simp only [close,get_bind,if_neg hstored,modify_bind]
    exact .undone (some e) (by simpa using hshutdown)

theorem turn_start {parent : Option UnixExn} {binds : Bool} (hrequest : request = .start parent binds) :
    Turn s n request none signal (start cfg n parent binds s).state (stateOf (start cfg n parent binds s)) := by
  have haside : ∀ state : UnixState, state.isHeld = false → Turn s n request none signal s state := by
    intro state hstate
    refine .aside (same_self s) rfl hstate fun task heq => ?_
    rw [hrequest] at heq
    exact nomatch heq
  by_cases hserver : s.host.server.isSome
  · simp only [start,get_bind,if_pos hserver]
    exact haside _ rfl
  · by_cases hshutdown : s.host.shutdown
    · simp only [start,get_bind,if_neg hserver,if_pos hshutdown]
      exact haside _ rfl
    · simp only [start,get_bind,if_neg hserver,if_neg hshutdown]
      cases parent with
      | some e => exact haside _ rfl
      | none =>
        by_cases hlong : 103 < cfg.pathLength
        · simp only [if_pos hlong]
          exact haside _ rfl
        · by_cases hpath : s.path.isSome
          · simp only [if_neg hlong,if_pos hpath]
            exact haside _ rfl
          · cases binds with
            | false =>
              simp only [if_neg hlong,if_neg hpath]
              exact haside _ rfl
            | true =>
              simp only [if_neg hlong,if_neg hpath]
              exact .creates (fun task heq => by rw [hrequest] at heq; exact nomatch heq) (by simpa using hserver) (by simpa using hshutdown) (by simpa using hpath)

theorem turn_created (secures ownerOnly : Bool) : Turn s n request (some .creating) signal
    (created n secures ownerOnly s).state (stateOf (created n secures ownerOnly s)) := by
  simp only [created,modify_bind,get_bind]
  by_cases hpath : (s.store n).path = none
  · rw [if_pos hpath]
    exact .started (same_self _) nofun
  · rw [if_neg hpath]
    cases secures with
    | false => exact .started (same_self _) nofun
    | true =>
      cases ownerOnly with
      | false => exact turn_undo _
      | true =>
        by_cases hshutdown : (s.store n).host.shutdown
        · simp only [if_pos hshutdown]
          exact turn_undo _
        · simp only [if_neg hshutdown]
          exact .started ⟨rfl,rfl,rfl,rfl,rfl,rfl⟩ nofun

theorem turn_handle {peer : Option ℕ} (hrequest : request = .handle peer) :
    Turn s n request none signal (handle cfg n peer s).state (stateOf (handle cfg n peer s)) := by
  simp only [handle,modify_bind,get_bind]
  have hclose : ∀ {p : Prop} task, request = .close task → p := by
    intro p task heq
    rw [hrequest] at heq
    exact nomatch heq
  split
  · exact .aside ⟨rfl,rfl,rfl,rfl,rfl,rfl⟩ rfl rfl hclose
  · exact .aside ⟨rfl,rfl,rfl,rfl,rfl,rfl⟩ rfl rfl hclose

theorem turn_removePath {removable : Bool} (behind : Option UnixExn) (hpoint : point.isTeardown) :
    Turn s n request (some point) (some (.ready removable)) (removePath removable behind s).state
      (stateOf (removePath removable behind s)) := by
  cases removable with
  | false => exact .broken _ hpoint (by simp [UnixSignal.isSound,hpoint])
  | true =>
    simp only [removePath,if_true,modify_bind]
    obtain ⟨hleave,hstate⟩ := leave_state behind s.unlink.setDone
    rw [hleave]
    exact .ended hpoint hstate

theorem turn_cancelHandlers {removable : Bool} {handlers : List ℕ} (behind : Option UnixExn) (hpoint : point.isTeardown) :
    Turn s n request (some point) (some (.ready removable)) (cancelHandlers task handlers removable behind s).state
      (stateOf (cancelHandlers task handlers removable behind s)) := by
  simp only [cancelHandlers,get_bind]
  split
  · exact turn_removePath behind hpoint
  · exact .stage hpoint rfl

theorem turn_closeChannels {removable : Bool} (behind : Option UnixExn) (hpoint : point.isTeardown) :
    Turn s n request (some point) (some (.ready removable)) (closeChannels task removable behind s).state
      (stateOf (closeChannels task removable behind s)) := by
  simp only [closeChannels,get_bind]
  split
  · exact turn_cancelHandlers behind hpoint
  · exact .stage hpoint rfl

theorem turn_handled (behind : Option UnixExn) (hbefore : before.all fun point => !point.isHeld)
    (hrequest : ∀ task, request ≠ .close task) :
    Turn s n request before signal (handled n behind s).state (stateOf (handled n behind s)) := by
  simp only [handled,modify_bind]
  obtain ⟨hleave,hstate⟩ := leave_state behind (s.discard n)
  rw [hleave]
  exact .aside ⟨rfl,rfl,rfl,rfl,rfl,rfl⟩ hbefore (not_held hstate) fun task heq => absurd heq (hrequest task)

/-- A call of `close` that returns finds the teardown done, and it is suspended nowhere else than in `close`. -/
def Closing (s : UnixLoop) : Prop := ∀ n task state, s.calls n = some { request := .close task, state } →
  (state = .returned → s.host.closeDone) ∧ ∀ point, state = .at point → point.isTeardown ∨ ∃ behind, point = .waiting behind

/-- The inversion of `resumeCall`. -/
theorem turn_resume {signal : UnixSignal} {program : UnixProg Unit}
    (h : resumeCall s n task point signal = some program)
    (hclose : ∀ task, request = .close task → point.isTeardown ∨ ∃ behind, point = .waiting behind) :
    Turn s n request (some point) (some signal) (program s).state (stateOf (program s)) := by
  have hnot : point.isTeardown = false → (∀ behind, point ≠ .waiting behind) → ∀ task, request ≠ .close task := by
    intro hteardown hwaiting task heq
    rcases hclose task heq with hpoint | ⟨behind,hpoint⟩
    · rw [hteardown] at hpoint
      exact nomatch hpoint
    · exact hwaiting behind hpoint
  cases point with
  | creating =>
    cases signal with
    | created secures ownerOnly =>
      obtain rfl := Option.some.inj h
      exact turn_created secures ownerOnly
    | cancelled =>
      obtain rfl := Option.some.inj h
      exact .abandoned
    | ready | raised | timeout => exact nomatch h
  | waiting behind =>
    cases signal with
    | ready removable =>
      simp only [resumeCall,Option.ite_none_right_eq_some,Option.some.injEq] at h
      obtain ⟨hdone,rfl⟩ := h
      obtain ⟨hleave,hstate⟩ := leave_state behind s
      rw [hleave]
      exact .aside (same_self s) rfl (not_held hstate) fun _ _ => ⟨fun _ => hdone,fun point hpoint => absurd hpoint (hstate point)⟩
    | cancelled =>
      obtain rfl := Option.some.inj h
      exact .aside (same_self s) rfl rfl fun _ _ => ⟨nofun,nofun⟩
    | created | raised | timeout => exact nomatch h
  | closingServer behind =>
    cases signal with
    | ready | raised | timeout =>
      obtain rfl := Option.some.inj h
      exact .stage rfl rfl
    | cancelled =>
      obtain rfl := Option.some.inj h
      exact .broken _ rfl rfl
    | created => exact nomatch h
  | yielding behind =>
    cases signal with
    | ready removable =>
      obtain rfl := Option.some.inj h
      exact turn_closeChannels behind rfl
    | cancelled =>
      obtain rfl := Option.some.inj h
      exact .broken _ rfl rfl
    | created | raised | timeout => exact nomatch h
  | closingChannels handlers behind =>
    cases signal with
    | ready removable =>
      obtain rfl := Option.some.inj h
      exact turn_cancelHandlers behind rfl
    | raised | cancelled =>
      obtain rfl := Option.some.inj h
      exact .broken _ rfl rfl
    | created | timeout => exact nomatch h
  | awaitingHandlers tasks behind =>
    cases signal with
    | ready removable =>
      simp only [resumeCall,Option.ite_none_right_eq_some,Option.some.injEq] at h
      obtain ⟨_,rfl⟩ := h
      exact turn_removePath behind rfl
    | cancelled =>
      obtain rfl := Option.some.inj h
      exact .broken _ rfl rfl
    | created | raised | timeout => exact nomatch h
  | handling =>
    have hrequest := hnot rfl nofun
    cases signal with
    | ready | raised | cancelled =>
      obtain rfl := Option.some.inj h
      exact .aside (same_self s) rfl rfl fun task heq => absurd heq (hrequest task)
    | created | timeout => exact nomatch h
  | closingChannel behind =>
    have hrequest := hnot rfl nofun
    cases signal with
    | ready =>
      obtain rfl := Option.some.inj h
      exact turn_handled behind rfl hrequest
    | raised | cancelled =>
      obtain rfl := Option.some.inj h
      exact .aside (same_self s) rfl rfl fun task heq => absurd heq (hrequest task)
    | created | timeout => exact nomatch h
  | leaving behind =>
    have hrequest := hnot rfl nofun
    cases signal with
    | ready | raised | timeout =>
      obtain rfl := Option.some.inj h
      exact turn_handled behind rfl hrequest
    | cancelled =>
      obtain rfl := Option.some.inj h
      exact .aside (same_self s) rfl rfl fun task heq => absurd heq (hrequest task)
    | created => exact nomatch h

/-- The point of a call that a turn starts from, and the action that makes the turn. -/
inductive Starts (s : UnixLoop) (n : ℕ) (request : UnixRequest) : UnixAction → Option UnixSignal → Option UnixPoint → Prop
  | begin (h : s.calls n = none) : Starts s n request (.begin n request) none none
  | resume (signal : UnixSignal) (point : UnixPoint) (h : s.calls n = some { request, state := .at point }) :
      Starts s n request (.resume n signal) (some signal) (some point)

/-- The inversion of `step`. -/
theorem step_cases {a : UnixAction} (h : step cfg s a = some s') (hs : Closing s) : ∃ n request signal before u state,
    Starts s n request a signal before ∧ Turn s n request before signal u state ∧ s' = u.conclude n { request, state } := by
  cases a with
  | begin n request =>
    simp only [step,Option.ite_none_right_eq_some,Option.some.injEq] at h
    obtain ⟨⟨hnone,hinside⟩,rfl⟩ := h
    refine ⟨n,request,none,none,_,_,.begin hnone,?_,rfl⟩
    cases request with
    | start parent binds => exact turn_start rfl
    | handle peer => exact turn_handle rfl
    | close task =>
      refine turn_close rfl fun howner => ?_
      by_contra hundone
      simp [isInside,howner,hundone] at hinside
  | resume n signal =>
    cases hcall : s.calls n with
    | none => simp [step,hcall] at h
    | some call =>
      obtain ⟨request,state⟩ := call
      cases state with
      | «at» point =>
        simp only [step,hcall] at h
        obtain ⟨program,hprogram,rfl⟩ := Option.map_eq_some_iff.mp h
        refine ⟨n,request,some signal,some point,_,_,.resume signal point hcall,turn_resume hprogram fun task heq => ?_,rfl⟩
        subst heq
        exact (hs n task _ hcall).2 point rfl
      | returned | raised e => simp [step,hcall] at h

theorem Turn.calls (h : Turn s n request before signal u state) : u.calls = s.calls := by
  cases h with
  | aside hsame => exact hsame.calls
  | started hsame => exact hsame.calls
  | ended =>
    simp only [unlink,setDone,update]
    split <;> rfl
  | _ => rfl

theorem calls_conclude (hcalls : u.calls = s.calls) (k : ℕ) : (u.conclude n { request, state }).calls k =
    if k = n then some { request, state } else s.calls k := by
  simp only [conclude,Function.update_apply,hcalls]

theorem Turn.done (h : Turn s n request before signal u state) (hs : s.host.closeDone) : u.host.closeDone := by
  cases h with
  | aside hsame => exact hsame.closeDone.trans hs
  | started hsame => exact hsame.closeDone.trans hs
  | ended | broken => rfl
  | _ => exact hs

theorem Starts.called {a : UnixAction} (h : Starts s n request a signal before) (hpoint : before = some point) :
    s.calls n = some { request, state := .at point } := by
  cases h with
  | begin => exact nomatch hpoint
  | resume _ _ h =>
    obtain rfl := Option.some.inj hpoint
    exact h

theorem closing_turn {a : UnixAction} (hstarts : Starts s n request a signal before)
    (h : Turn s n request before signal u state) (hs : Closing s) : Closing (u.conclude n { request, state }) := by
  intro k task state' hk
  rw [calls_conclude h.calls] at hk
  split at hk
  · obtain ⟨rfl,rfl⟩ := UnixCall.mk.inj (Option.some.inj hk)
    -- a call of `close` creates nothing
    have hcreating : ∀ {p : Prop}, before = some .creating → p := by
      intro p hbefore
      rcases (hs n task _ (hstarts.called hbefore)).2 _ rfl with hfalse | ⟨behind,hfalse⟩
      · exact nomatch hfalse
      · exact nomatch hfalse
    have hteardown : ∀ {next : UnixPoint} {done : Bool}, next.isTeardown → (UnixState.at next = .returned → done) ∧
        ∀ point, UnixState.at next = .at point → point.isTeardown ∨ ∃ behind, point = .waiting behind := by
      intro next done hnext
      refine ⟨nofun,fun point hpoint => .inl ?_⟩
      obtain rfl := UnixState.at.inj hpoint
      exact hnext
    cases h with
    | aside hsame _ _ hclose =>
      obtain ⟨hreturned,hpoint⟩ := hclose task rfl
      exact ⟨fun heq => hsame.closeDone.trans (hreturned heq),fun point heq => .inr (hpoint point heq)⟩
    | creates hrequest => exact absurd rfl (hrequest task)
    | started | abandoned | late | undone => exact hcreating rfl
    | claimsNothing | claims => exact hteardown rfl
    | stage _ hnext => exact hteardown hnext
    | ended _ hstate => exact ⟨fun _ => rfl,fun point heq => absurd heq (hstate point)⟩
    | broken => exact ⟨nofun,nofun⟩
  · obtain ⟨hreturned,hpoint⟩ := hs k task state' hk
    exact ⟨fun heq => h.done (hreturned heq),hpoint⟩

theorem reachable_closing {ok : UnixLoop → UnixAction → Prop} (h : ReachableWith (step cfg) ok Init s) : Closing s := by
  refine h.invariant (fun s hs => ?_) fun s a s' hs _ hstep => ?_
  · obtain ⟨path,_,rfl⟩ := hs
    exact nofun
  · obtain ⟨n,request,signal,before,u,state,hstarts,hturn,rfl⟩ := step_cases hstep hs
    exact closing_turn hstarts hturn hs

/-! The server and the path. -/

def held (s : UnixLoop) (n : ℕ) : Bool := (s.calls n).any fun call => call.state.isHeld

theorem held_conclude (hcalls : u.calls = s.calls) (k : ℕ) : (u.conclude n { request, state }).held k =
    if k = n then state.isHeld else s.held k := by
  simp only [held,calls_conclude hcalls]
  split <;> rfl

theorem held_at (h : s.calls n = some { request, state := .at point }) : s.held n = point.isHeld := by
  simp [held,h,UnixState.isHeld]

/-- How far the host has come with its server. -/
inductive Phase (s : UnixLoop) : Prop
  | fresh (hopen : s.host.shutdown = false) (hundone : s.host.closeDone = false) (hserver : s.host.server = none)
      (hidle : ∀ k, s.held k = false) (hlog : ∀ k, .created k ∉ s.log)
  | creating (n : ℕ) (hopen : s.host.shutdown = false) (hundone : s.host.closeDone = false)
      (hserver : s.host.server = none) (hcall : s.Suspended n .creating)
      (hidle : ∀ k, k ≠ n → s.held k = false) (hlog : ∀ k, .created k ∈ s.log → k = n) (hpath : s.path = some (.socket n))
  | serving (n : ℕ) (hopen : s.host.shutdown = false) (hundone : s.host.closeDone = false)
      (hserver : s.host.server = some n) (hidle : ∀ k, s.held k = false) (hlog : ∀ k, .created k ∈ s.log → k = n)
  | closing (n : ℕ) (point : UnixPoint) (hshutdown : s.host.shutdown) (hundone : s.host.closeDone = false)
      (hcall : s.Suspended n point) (hpoint : point.isTeardown) (hidle : ∀ k, k ≠ n → s.held k = false)
      (hlog : ∀ k, .created k ∈ s.log → .serverClosed k ∈ s.log)
  | done (hshutdown : s.host.shutdown) (hidle : ∀ k, s.held k = false)
      (hlog : ∀ k, .created k ∈ s.log → .serverClosed k ∈ s.log) (hpath : ∀ k, s.path ≠ some (.socket k))

/-- No `close` takes the shutdown while `start` is suspended in the creation, `start` is not cancelled there, and
nothing fails in the teardown of a host whose socket is still there. -/
def Ordered (s : UnixLoop) : UnixAction → Prop
  | .begin _ (.close _) => s.host.shutdown = false → ∀ n, ¬s.Suspended n .creating
  | .resume n signal => ∀ point, s.Suspended n point → (signal = .cancelled → point ≠ .creating) ∧
    ((∃ k, s.path = some (.socket k)) → signal.isSound point)
  | _ => True

theorem idle_conclude (hcalls : u.calls = s.calls) (hidle : ∀ k, k ≠ n → s.held k = false) (hstate : state.isHeld = false)
    (k : ℕ) : (u.conclude n { request, state }).held k = false := by
  rw [held_conclude hcalls]
  split
  · exact hstate
  · rename_i hne
    exact hidle k hne

theorem others_conclude (hcalls : u.calls = s.calls) (hidle : ∀ k, k ≠ n → s.held k = false) (k : ℕ) (hk : k ≠ n) :
    (u.conclude n { request, state }).held k = false := by
  rw [held_conclude hcalls,if_neg hk]
  exact hidle k hk

theorem suspended_self (request : UnixRequest) (point : UnixPoint) :
    (u.conclude n { request, state := .at point }).Suspended n point := ⟨request,Function.update_self ..⟩

/-- A turn aside from the server. -/
theorem Phase.keep (h : Phase s) (hsame : Same s u) (hself : s.held n = false) (hstate : state.isHeld = false) :
    Phase (u.conclude n { request, state }) := by
  have hidle : ∀ k, s.held k = false → (u.conclude n { request, state }).held k = false := by
    intro k hk
    rw [held_conclude hsame.calls]
    split
    · exact hstate
    · exact hk
  have hcall : ∀ {k point}, s.Suspended k point → point.isHeld → (u.conclude n { request, state }).Suspended k point := by
    rintro k point ⟨request',hk⟩ hpoint
    refine ⟨request',?_⟩
    rw [calls_conclude hsame.calls]
    split
    · rename_i heq
      subst heq
      rw [held_at hk,hpoint] at hself
      exact nomatch hself
    · exact hk
  have hteardown : ∀ {point : UnixPoint}, point.isTeardown → point.isHeld := fun h => by simp [UnixPoint.isHeld,h]
  have hlog : (u.conclude n { request, state }).log = s.log := hsame.log
  cases h with
  | fresh hopen hundone hserver hall hnone =>
    exact .fresh (hsame.shutdown.trans hopen) (hsame.closeDone.trans hundone) (hsame.server.trans hserver)
      (fun k => hidle k (hall k)) (hlog.symm ▸ hnone)
  | creating m hopen hundone hserver hm hothers hone hpath =>
    exact .creating m (hsame.shutdown.trans hopen) (hsame.closeDone.trans hundone) (hsame.server.trans hserver) (hcall hm rfl)
      (fun k hk => hidle k (hothers k hk)) (hlog.symm ▸ hone) (hsame.path.trans hpath)
  | serving m hopen hundone hserver hall hone =>
    exact .serving m (hsame.shutdown.trans hopen) (hsame.closeDone.trans hundone) (hsame.server.trans hserver)
      (fun k => hidle k (hall k)) (hlog.symm ▸ hone)
  | closing m point hshutdown hundone hm hpoint hothers hclosed =>
    exact .closing m point (hsame.shutdown.trans hshutdown) (hsame.closeDone.trans hundone) (hcall hm (hteardown hpoint)) hpoint
      (fun k hk => hidle k (hothers k hk)) (hlog.symm ▸ hclosed)
  | done hshutdown hall hclosed hpath =>
    exact .done (hsame.shutdown.trans hshutdown) (fun k => hidle k (hall k)) (hlog.symm ▸ hclosed)
      fun k heq => hpath k (hsame.path.symm.trans heq)

/-- A host with a call that creates its server. -/
theorem Phase.at_creating (h : Phase s) (hn : s.calls n = some { request, state := .at .creating }) :
    s.host.shutdown = false ∧ s.host.closeDone = false ∧ (∀ k, k ≠ n → s.held k = false) ∧ ∀ k, .created k ∈ s.log → k = n := by
  have hself : s.held n = true := held_at hn
  have hother : ∀ m, (∀ k, k ≠ m → s.held k = false) → n = m := by
    intro m hothers
    by_contra hne
    rw [hothers n hne] at hself
    exact nomatch hself
  cases h with
  | fresh _ _ _ hall | serving _ _ _ _ hall | done _ hall =>
    rw [hall n] at hself
    exact nomatch hself
  | creating m hopen hundone _ _ hothers hone =>
    obtain rfl := hother m hothers
    exact ⟨hopen,hundone,hothers,hone⟩
  | closing m point _ _ hm hpoint hothers =>
    obtain rfl := hother m hothers
    obtain ⟨request',hm⟩ := hm
    rw [hn] at hm
    obtain rfl := UnixState.at.inj (UnixCall.mk.inj (Option.some.inj hm)).2
    exact nomatch hpoint

/-- A host with a call that tears it down. -/
theorem Phase.at_teardown (h : Phase s) (hn : s.calls n = some { request, state := .at point }) (hpoint : point.isTeardown) :
    s.host.shutdown ∧ s.host.closeDone = false ∧ (∀ k, k ≠ n → s.held k = false) ∧
      ∀ k, .created k ∈ s.log → .serverClosed k ∈ s.log := by
  have hself : s.held n = true := by simp [held_at hn,UnixPoint.isHeld,hpoint]
  have hother : ∀ m, (∀ k, k ≠ m → s.held k = false) → n = m := by
    intro m hothers
    by_contra hne
    rw [hothers n hne] at hself
    exact nomatch hself
  cases h with
  | fresh _ _ _ hall | serving _ _ _ _ hall | done _ hall =>
    rw [hall n] at hself
    exact nomatch hself
  | creating m _ _ _ hm hothers =>
    obtain rfl := hother m hothers
    obtain ⟨request',hm⟩ := hm
    rw [hn] at hm
    obtain rfl := UnixState.at.inj (UnixCall.mk.inj (Option.some.inj hm)).2
    exact nomatch hpoint
  | closing m _ hshutdown hundone _ _ hothers hclosed =>
    obtain rfl := hother m hothers
    exact ⟨hshutdown,hundone,hothers,hclosed⟩

theorem unlink_path (s : UnixLoop) (k : ℕ) : s.unlink.path ≠ some (.socket k) := by
  intro heq
  by_cases hsocket : s.path.any PathEntry.isSocket
  · rw [unlink,if_pos hsocket] at heq
    exact nomatch heq
  · rw [unlink,if_neg hsocket] at heq
    rw [heq] at hsocket
    exact hsocket rfl

theorem unlink_same (s : UnixLoop) : s.unlink.host = s.host ∧ s.unlink.log = s.log ∧ s.unlink.calls = s.calls := by
  unfold unlink
  split <;> exact ⟨rfl,rfl,rfl⟩

theorem phase_turn {a : UnixAction} (hstarts : Starts s n request a signal before) (h : Turn s n request before signal u state)
    (ha : Ordered s a) (hs : Phase s) : Phase (u.conclude n { request, state }) := by
  have hclosed : ∀ {k} {log : List UnixTrace}, (∀ j, .created j ∈ log → j = k) →
      ∀ j, .created j ∈ .serverClosed k :: log → .serverClosed j ∈ UnixTrace.serverClosed k :: log := by
    intro k log hone j hj
    rcases List.mem_cons.mp hj with heq | hin
    · exact nomatch heq
    · rw [hone j hin]
      exact List.mem_cons_self
  cases h with
  | aside hsame hbefore hstate =>
    refine hs.keep hsame ?_ hstate
    cases hstarts with
    | begin hcall => simp [held,hcall]
    | resume signal point hcall =>
      rw [held_at hcall]
      simpa using hbefore
  | creates _ hserver hopen hpath =>
    cases hs with
    | fresh _ hundone _ hall hlog =>
      refine .creating n hopen hundone hserver (suspended_self _ _) (others_conclude rfl fun k _ => hall k) (fun k hk => ?_) rfl
      rcases List.mem_cons.mp hk with heq | hin
      · exact UnixTrace.created.inj heq
      · exact absurd hin (hlog k)
    | creating m _ _ _ _ _ _ hsome =>
      rw [hpath] at hsome
      exact nomatch hsome
    | serving m _ _ hsome =>
      rw [hserver] at hsome
      exact nomatch hsome
    | closing _ _ hshutdown | done hshutdown =>
      rw [hopen] at hshutdown
      exact nomatch hshutdown
  | started hsame hstate =>
    obtain ⟨hopen,hundone,hothers,hone⟩ := hs.at_creating (hstarts.called rfl)
    have hlog : (u.conclude n { request, state }).log = s.log := hsame.log
    exact .serving n (hsame.shutdown.trans hopen) (hsame.closeDone.trans hundone) hsame.server
      (idle_conclude hsame.calls hothers (not_held hstate)) (hlog.symm ▸ hone)
  | abandoned =>
    cases hstarts with
    | resume _ _ hcall => exact absurd rfl ((ha _ ⟨request,hcall⟩).1 rfl)
  | late hshutdown =>
    obtain ⟨hopen,_⟩ := hs.at_creating (hstarts.called rfl)
    rw [hopen] at hshutdown
    exact nomatch hshutdown
  | claimsNothing task behind hrequest hopen hserver =>
    subst hrequest
    cases hs with
    | fresh _ hundone _ hall hlog =>
      exact .closing n _ rfl hundone (suspended_self _ _) rfl (others_conclude rfl fun k _ => hall k)
        fun k hk => absurd hk (hlog k)
    | creating m _ _ _ hm =>
      cases hstarts
      exact absurd hm (ha hopen m)
    | serving m _ _ hsome =>
      rw [hserver] at hsome
      exact nomatch hsome
    | closing _ _ hshutdown | done hshutdown =>
      rw [hopen] at hshutdown
      exact nomatch hshutdown
  | claims task server behind hrequest hopen hserver =>
    subst hrequest
    cases hs with
    | fresh _ _ hnone =>
      rw [hserver] at hnone
      exact nomatch hnone
    | creating m _ _ _ hm =>
      cases hstarts
      exact absurd hm (ha hopen m)
    | serving m _ hundone hsome hall hone =>
      obtain rfl := Option.some.inj (hserver.symm.trans hsome)
      exact .closing n _ rfl hundone (suspended_self _ _) rfl (others_conclude rfl fun k _ => hall k) (hclosed hone)
    | closing _ _ hshutdown | done hshutdown =>
      rw [hopen] at hshutdown
      exact nomatch hshutdown
  | undone behind =>
    obtain ⟨hopen,hundone,hothers,hone⟩ := hs.at_creating (hstarts.called rfl)
    exact .closing n _ rfl hundone (suspended_self _ _) rfl (others_conclude rfl hothers) (hclosed hone)
  | stage hpoint hnext =>
    obtain ⟨hshutdown,hundone,hothers,hall⟩ := hs.at_teardown (hstarts.called rfl) hpoint
    exact .closing n _ hshutdown hundone (suspended_self _ _) hnext (others_conclude rfl hothers) hall
  | ended hpoint hstate =>
    obtain ⟨hshutdown,_,hothers,hall⟩ := hs.at_teardown (hstarts.called rfl) hpoint
    obtain ⟨hhost,hlog,hcalls⟩ := unlink_same s
    refine .done ?_ (idle_conclude hcalls hothers (not_held hstate)) ?_ (unlink_path s)
    · change s.unlink.host.shutdown
      rw [hhost]
      exact hshutdown
    · change ∀ k, .created k ∈ s.unlink.log → .serverClosed k ∈ s.unlink.log
      rw [hlog]
      exact hall
  | broken e hpoint hsound =>
    obtain ⟨hshutdown,_,hothers,hall⟩ := hs.at_teardown (hstarts.called rfl) hpoint
    refine .done hshutdown (idle_conclude rfl hothers rfl) hall fun k hk => ?_
    cases hstarts with
    | resume _ _ hcall =>
      have hpath : ∃ k, s.path = some (.socket k) := ⟨k,hk⟩
      have htrue := (ha _ ⟨request,hcall⟩).2 hpath
      rw [hsound] at htrue
      exact nomatch htrue

theorem reachable_phase (h : ReachableWith (step cfg) Ordered Init s) : Phase s := by
  refine h.invariant_with (J := Closing) (fun s hr => reachable_closing hr) (fun s hs => ?_)
    fun s a s' hclosing hs ha hstep => ?_
  · obtain ⟨path,_,rfl⟩ := hs
    exact .fresh rfl rfl rfl (fun _ => rfl) nofun
  · obtain ⟨n,request,signal,before,u,state,hstarts,hturn,rfl⟩ := step_cases hstep hclosing
    exact phase_turn hstarts hturn ha hs

/-- Once a call of `close` has returned, every server that the host has created is closed, and its socket is gone from
the path; in every history in which no `close` takes the shutdown while `start` is suspended in the creation, `start`
is not cancelled there, and the teardown does not fail. -/
theorem start_close_safe (h : ReachableWith (step cfg) Ordered Init s)
    (hclose : s.calls m = some { request := .close task, state := .returned }) (n : ℕ) (hn : .created n ∈ s.log) :
    .serverClosed n ∈ s.log ∧ s.path ≠ some (.socket n) := by
  have hdone := (reachable_closing h m task _ hclose).1 rfl
  cases reachable_phase h with
  | fresh _ hundone | creating _ _ hundone | serving _ _ hundone | closing _ _ _ hundone =>
    rw [hundone] at hdone
    exact nomatch hdone
  | done _ _ hclosed hpath => exact ⟨hclosed n hn,hpath n⟩

/-! A host that is started and closed. -/

def sampleUnix : UnixConfig where
  ownerUid := 1000
  pathLength := 24

def orderedCheck (_ : UnixLoop) : UnixAction → Bool
  | .begin _ (.close _) => false
  | .resume _ .cancelled | .resume _ .raised | .resume _ (.ready false) => false
  | _ => true

theorem orderedCheck_ordered (s : UnixLoop) (a : UnixAction) (h : orderedCheck s a) : Ordered s a := by
  cases a with
  | begin n request =>
    cases request with
    | close task => exact nomatch h
    | start | handle => trivial
  | resume n signal =>
    cases signal with
    | ready removable =>
      cases removable with
      | false => exact nomatch h
      | true => exact fun _ _ => ⟨nofun,fun _ => rfl⟩
    | created | timeout => exact fun _ _ => ⟨nofun,fun _ => rfl⟩
    | raised | cancelled => exact nomatch h

/-- Nothing is created as long as a server is stored. -/
theorem Phase.served (h : Phase s) (hopen : s.host.shutdown = false) (hserver : s.host.server ≠ none) (n : ℕ) :
    ¬s.Suspended n .creating := by
  rintro ⟨request,hn⟩
  have hself : s.held n = true := held_at hn
  cases h with
  | fresh _ _ hnone | creating _ _ _ hnone => exact hserver hnone
  | serving _ _ _ _ hall =>
    rw [hall n] at hself
    exact nomatch hself
  | closing _ _ hshutdown | done hshutdown =>
    rw [hopen] at hshutdown
    exact nomatch hshutdown

theorem init_default : Init ({} : UnixLoop) := ⟨none,fun _ => nofun,rfl⟩

theorem start_close_safe_served : ∃ s, ReachableWith (step sampleUnix) Ordered Init s ∧
    s.calls 1 = some { request := .close 7, state := .returned } ∧ .created 0 ∈ s.log ∧ .serverClosed 0 ∈ s.log ∧
    s.path ≠ some (.socket 0) := by
  have hstarted : ∃ s, exec (guarded (step sampleUnix) orderedCheck) {} [.begin 0 (.start none true),
      .resume 0 (.created true true)] = some s ∧ s.host.shutdown = false ∧ s.host.server = some 0 ∧
      ∃ s', step sampleUnix s (.begin 1 (.close 7)) = some s' ∧ ∃ s'', exec (guarded (step sampleUnix) orderedCheck) s'
        [.resume 1 .timeout,.resume 1 (.ready true)] = some s'' ∧ s''.log = [.serverClosed 0,.created 0] ∧
        s''.calls 1 = some { request := .close 7, state := .returned } := ⟨_,rfl,rfl,rfl,_,rfl,_,rfl,rfl,rfl⟩
  obtain ⟨s,hs,hopen,hserver,s',hs',s'',hs'',hlog,hclose⟩ := hstarted
  have hreach := exec_reachableWith _ orderedCheck_ordered init_default hs
  have hordered : Ordered s (.begin 1 (.close 7)) :=
    fun _ => (reachable_phase hreach).served hopen (by simp [hserver])
  have hreach' := (hreach.tail hordered hs').steps (guarded_steps _ orderedCheck_ordered (exec_steps _ hs''))
  have hcreated : .created 0 ∈ s''.log := by simp [hlog]
  obtain ⟨hclosed,hpath⟩ := start_close_safe hreach' hclose 0 hcreated
  exact ⟨s'',hreach',hclose,hcreated,hclosed,hpath⟩

/-- `close` comes while the server is created: both calls are over, and the server is not closed. -/
theorem start_close_leaks : ∃ s, Reachable (step sampleUnix) Init s ∧
    s.calls 1 = some { request := .close 7, state := .returned } ∧
    s.calls 0 = some { request := .start none true, state := .raised (.runtime "host is closed") } ∧
    s.log = [.created 0] ∧ s.host.server = some 0 := by
  have hexec : ∃ s, exec (step sampleUnix) {} [.begin 0 (.start none true),.begin 1 (.close 7),.resume 0 (.created true true),
      .resume 1 (.ready true),.resume 0 (.ready true)] = some s ∧
      s.calls 1 = some { request := .close 7, state := .returned } ∧
      s.calls 0 = some { request := .start none true, state := .raised (.runtime "host is closed") } ∧
      s.log = [.created 0] ∧ s.host.server = some 0 := ⟨_,rfl,rfl,rfl,rfl,rfl⟩
  obtain ⟨s,hs,hrest⟩ := hexec
  exact ⟨s,exec_reachable _ init_default hs,hrest⟩

end UnixLoop
end Transports
end HarnessSdk
