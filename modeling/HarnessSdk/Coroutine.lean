import Mathlib.Logic.Relation

/-!
# Programs of a cooperative task

Between two suspension points a task of an event loop runs alone. Such a stretch is a
`Run`: it ends with a value, raises an error, or suspends at a point `π` from which the
task will be resumed, and each of these leaves a state.
-/

namespace HarnessSdk

open Relation (ReflTransGen)

variable {σ π ε α β : Type}

inductive Outcome (σ π ε α : Type)
  | ok (value : α) (state : σ)
  | raise (error : ε) (state : σ)
  | park (point : π) (state : σ)

@[simp] def Outcome.state : Outcome σ π ε α → σ
  | ok _ s | raise _ s | park _ s => s

/-- A stretch of a task's program. -/
def Run (σ π ε α : Type) := σ → Outcome σ π ε α

namespace Run

instance : Monad (Run σ π ε) where
  pure a := fun s => .ok a s
  bind m k := fun s =>
    match m s with
    | .ok a t => k a t
    | .raise e t => .raise e t
    | .park p t => .park p t

def get : Run σ π ε σ := fun s => .ok s s

def modify (f : σ → σ) : Run σ π ε Unit := fun s => .ok () (f s)

def raise (e : ε) : Run σ π ε α := fun s => .raise e s

/-- Give the processor away. -/
def suspend (p : π) : Run σ π ε α := fun s => .park p s

/-- `try: m except error: h(error)`. -/
def handle (m : Run σ π ε α) (h : ε → Run σ π ε α) : Run σ π ε α := fun s =>
  match m s with
  | .ok a t => .ok a t
  | .raise e t => h e t
  | .park p t => .park p t

/-- `try: m finally: f`. A suspended program has not come to its `finally` yet. -/
def ensuring (m : Run σ π ε α) (f : σ → σ) : Run σ π ε α := fun s =>
  match m s with
  | .ok a t => .ok a (f t)
  | .raise e t => .raise e (f t)
  | .park p t => .park p t

def ofExcept : Except ε α → Run σ π ε α
  | .ok a => pure a
  | .error e => raise e

/-- Go on with `k` only after `true`. -/
def andThen (m k : Run σ π ε Bool) : Run σ π ε Bool := do
  if ← m then k else pure false

/-- Programs in a row, up to the first that answers `false`. -/
def all : List (Run σ π ε Bool) → Run σ π ε Bool
  | [] => pure true
  | m :: ms => andThen m (all ms)

@[simp] theorem pure_apply (a : α) (s : σ) : (pure a : Run σ π ε α) s = .ok a s := rfl
@[simp] theorem get_apply (s : σ) : (get : Run σ π ε σ) s = .ok s s := rfl
@[simp] theorem modify_apply (f : σ → σ) (s : σ) : (modify f : Run σ π ε Unit) s = .ok () (f s) := rfl
@[simp] theorem raise_apply (e : ε) (s : σ) : (raise e : Run σ π ε α) s = .raise e s := rfl
@[simp] theorem suspend_apply (p : π) (s : σ) : (suspend p : Run σ π ε α) s = .park p s := rfl

theorem bind_apply (m : Run σ π ε α) (k : α → Run σ π ε β) (s : σ) :
    (m >>= k) s = match m s with
      | .ok a t => k a t
      | .raise e t => .raise e t
      | .park p t => .park p t := rfl

@[simp] theorem get_bind (k : σ → Run σ π ε β) (s : σ) : (get >>= k) s = k s s := rfl
@[simp] theorem modify_bind (f : σ → σ) (k : Unit → Run σ π ε β) (s : σ) :
    (modify f >>= k) s = k () (f s) := rfl
@[simp] theorem pure_bind_apply (a : α) (k : α → Run σ π ε β) (s : σ) :
    ((pure a : Run σ π ε α) >>= k) s = k a s := rfl
@[simp] theorem raise_bind (e : ε) (k : α → Run σ π ε β) (s : σ) :
    ((raise e : Run σ π ε α) >>= k) s = .raise e s := rfl

theorem bind_eq {m : Run σ π ε α} {k : α → Run σ π ε β} {s t : σ} {a : α} (h : m s = .ok a t) :
    (m >>= k) s = k a t := by
  rw [bind_apply,h]

theorem bind_ok {m : Run σ π ε α} {k : α → Run σ π ε β} {s t : σ} {b : β}
    (h : (m >>= k) s = .ok b t) : ∃ a u, m s = .ok a u ∧ k a u = .ok b t := by
  rw [bind_apply] at h
  cases hm : m s with
  | ok a u => exact ⟨a,u,rfl,by simpa [hm] using h⟩
  | raise e u => simp [hm] at h
  | park p u => simp [hm] at h

/-- From `s` the program `m` makes only moves of `M`, and where it suspends `Q` holds of the
point and the state. -/
structure Within (M : σ → σ → Prop) (Q : π → σ → Prop) (m : Run σ π ε α) (s : σ) : Prop where
  moves : ReflTransGen M s (m s).state
  parks : ∀ p u, m s = .park p u → Q p u

section Within

variable {M : σ → σ → Prop} {Q : π → σ → Prop} {s : σ}

theorem Within.ok {m : Run σ π ε α} (h : Within M Q m s) {a : α} {u : σ} (hu : m s = .ok a u) :
    ReflTransGen M s u := by
  have hh := h.moves
  rwa [hu] at hh

theorem Within.raised {m : Run σ π ε α} (h : Within M Q m s) {e : ε} {u : σ} (hu : m s = .raise e u) :
    ReflTransGen M s u := by
  have hh := h.moves
  rwa [hu] at hh

theorem Within.parked {m : Run σ π ε α} (h : Within M Q m s) {p : π} {u : σ} (hu : m s = .park p u) :
    ReflTransGen M s u := by
  have hh := h.moves
  rwa [hu] at hh

theorem Within.mono {M' : σ → σ → Prop} {Q' : π → σ → Prop} {m : Run σ π ε α} (h : Within M Q m s)
    (hM : ∀ u v, M u v → M' u v) (hQ : ∀ p u, Q p u → Q' p u) : Within M' Q' m s :=
  ⟨ReflTransGen.mono hM _ _ h.moves,fun p u hu => hQ p u (h.parks p u hu)⟩

theorem within_pure {a : α} : Within M Q (pure a : Run σ π ε α) s :=
  ⟨.refl,fun _ _ h => by simp at h⟩

theorem within_raise {e : ε} : Within M Q (raise e : Run σ π ε α) s :=
  ⟨.refl,fun _ _ h => by simp at h⟩

theorem within_suspend {p : π} (h : Q p s) : Within M Q (suspend p : Run σ π ε α) s := by
  refine ⟨.refl,fun p' u hu => ?_⟩
  simp only [suspend_apply,Outcome.park.injEq] at hu
  obtain ⟨rfl,rfl⟩ := hu
  exact h

theorem within_modify_path {f : σ → σ} (h : ReflTransGen M s (f s)) :
    Within M Q (modify f : Run σ π ε Unit) s := ⟨h,fun _ _ h => by simp at h⟩

theorem within_modify {f : σ → σ} (h : M s (f s)) : Within M Q (modify f : Run σ π ε Unit) s :=
  within_modify_path (.single h)

theorem within_ofExcept {x : Except ε α} : Within M Q (ofExcept x : Run σ π ε α) s := by
  cases x
  · exact within_raise
  · exact within_pure

theorem within_ofExcept_bind {x : Except ε α} {k : α → Run σ π ε β} (h : ∀ a, x = .ok a → Within M Q (k a) s) :
    Within M Q (ofExcept x >>= k) s := by
  cases x with
  | error e => exact ⟨.refl,fun _ _ hu => nomatch hu⟩
  | ok a => exact h a rfl

theorem within_get {k : σ → Run σ π ε β} (h : Within M Q (k s) s) : Within M Q (get >>= k) s :=
  ⟨h.moves,h.parks⟩

/-- The composition rule: the second program starts where the first one ended. -/
theorem Within.bind {m : Run σ π ε α} {k : α → Run σ π ε β} (hm : Within M Q m s)
    (hk : ∀ a u, m s = .ok a u → ReflTransGen M s u → Within M Q (k a) u) : Within M Q (m >>= k) s := by
  cases h : m s with
  | ok a u =>
    have hu := hk a u h (hm.ok h)
    refine ⟨?_,fun p v hv => hu.parks p v ?_⟩
    · rw [bind_apply,h]
      exact (hm.ok h).trans hu.moves
    · rwa [bind_apply,h] at hv
  | raise e u =>
    refine ⟨?_,fun p v hv => ?_⟩
    · rw [bind_apply,h]
      exact hm.raised h
    · simp [bind_apply,h] at hv
  | park q u =>
    refine ⟨?_,fun p v hv => hm.parks p v ?_⟩
    · rw [bind_apply,h]
      exact hm.parked h
    · simpa [bind_apply,h] using hv

theorem within_modify_bind {f : σ → σ} {k : Unit → Run σ π ε β} (h : ReflTransGen M s (f s))
    (hk : Within M Q (k ()) (f s)) : Within M Q (modify f >>= k) s :=
  ⟨h.trans hk.moves,hk.parks⟩

theorem Within.handle {m : Run σ π ε α} {h : ε → Run σ π ε α} (hm : Within M Q m s)
    (hh : ∀ e u, m s = .raise e u → ReflTransGen M s u → Within M Q (h e) u) :
    Within M Q (handle m h) s := by
  cases hs : m s with
  | ok a u =>
    refine ⟨?_,fun p v hv => ?_⟩
    · simpa only [Run.handle,hs,Outcome.state] using hm.ok hs
    · simp [Run.handle,hs] at hv
  | raise e u =>
    have hu := hh e u hs (hm.raised hs)
    refine ⟨?_,fun p v hv => hu.parks p v ?_⟩
    · simpa only [Run.handle,hs,Outcome.state] using (hm.raised hs).trans hu.moves
    · simpa only [Run.handle,hs,Outcome.state] using hv
  | park q u =>
    refine ⟨?_,fun p v hv => hm.parks p v ?_⟩
    · simpa only [Run.handle,hs,Outcome.state] using hm.parked hs
    · simpa [Run.handle,hs] using hv

theorem Within.ensuring {m : Run σ π ε α} {f : σ → σ} (hm : Within M Q m s)
    (hf : ∀ u, ReflTransGen M s u → ReflTransGen M u (f u)) : Within M Q (ensuring m f) s := by
  cases hs : m s with
  | ok a u =>
    refine ⟨?_,fun p v hv => ?_⟩
    · simpa only [Run.ensuring,hs,Outcome.state] using (hm.ok hs).trans (hf u (hm.ok hs))
    · simp [Run.ensuring,hs] at hv
  | raise e u =>
    refine ⟨?_,fun p v hv => ?_⟩
    · simpa only [Run.ensuring,hs,Outcome.state] using (hm.raised hs).trans (hf u (hm.raised hs))
    · simp [Run.ensuring,hs] at hv
  | park q u =>
    refine ⟨?_,fun p v hv => hm.parks p v ?_⟩
    · simpa only [Run.ensuring,hs,Outcome.state] using hm.parked hs
    · simpa [Run.ensuring,hs] using hv

theorem Within.ite {p : Prop} [Decidable p] {m n : Run σ π ε α} (hm : p → Within M Q m s)
    (hn : ¬p → Within M Q n s) : Within M Q (if p then m else n) s := by
  split
  · exact hm ‹_›
  · exact hn ‹_›

theorem Within.andThen {m k : Run σ π ε Bool} (hm : Within M Q m s)
    (hk : ∀ u, m s = .ok true u → ReflTransGen M s u → Within M Q k u) :
    Within M Q (andThen m k) s := by
  apply hm.bind
  rintro (_ | _) u hu hsu
  · exact within_pure
  · exact hk u hu hsu

theorem within_all_nil : Within M Q (all [] : Run σ π ε Bool) s := within_pure

theorem all_cons_true {m : Run σ π ε Bool} {ms : List (Run σ π ε Bool)} {t : σ} (h : all (m :: ms) s = .ok true t) :
    ∃ u, m s = .ok true u ∧ all ms u = .ok true t := by
  obtain ⟨go,u,hu,h⟩ := bind_ok (m := m) h
  cases go with
  | false => simp at h
  | true => exact ⟨u,hu,h⟩

theorem within_all_cons {m : Run σ π ε Bool} {ms : List (Run σ π ε Bool)} (hm : Within M Q m s)
    (hk : ∀ u, m s = .ok true u → ReflTransGen M s u → Within M Q (all ms) u) :
    Within M Q (all (m :: ms)) s := hm.andThen hk

/-- A row of programs under a condition `I` that each of them keeps when it answers `true`. -/
theorem within_all {I : σ → Prop} {ms : List (Run σ π ε Bool)} (hs : I s)
    (h : ∀ m ∈ ms, ∀ u, ReflTransGen M s u → I u → Within M Q m u ∧ ∀ v, m u = .ok true v → I v) :
    Within M Q (all ms) s := by
  induction ms generalizing s with
  | nil => exact within_pure
  | cons m ms ih =>
    obtain ⟨hm,hI⟩ := h m List.mem_cons_self s .refl hs
    refine hm.andThen fun u hu hsu => ih (hI u hu) fun m' hm' v huv => ?_
    exact h m' (List.mem_cons_of_mem _ hm') v (hsu.trans huv)

end Within

/-- Where `m` ends from `s`, `P` holds of its value and `E` of its error. -/
structure Ends (P : α → σ → Prop) (E : ε → σ → Prop) (m : Run σ π ε α) (s : σ) : Prop where
  ok : ∀ a u, m s = .ok a u → P a u
  raised : ∀ e u, m s = .raise e u → E e u

section Ends

variable {P P' : α → σ → Prop} {E E' : ε → σ → Prop} {s : σ}

theorem Ends.mono {m : Run σ π ε α} (h : Ends P E m s) (hP : ∀ a u, P a u → P' a u)
    (hE : ∀ e u, E e u → E' e u) : Ends P' E' m s :=
  ⟨fun a u hu => hP a u (h.ok a u hu),fun e u hu => hE e u (h.raised e u hu)⟩

theorem ends_trivial {m : Run σ π ε α} : Ends (fun _ _ => True) (fun _ _ => True) m s :=
  ⟨fun _ _ _ => trivial,fun _ _ _ => trivial⟩

theorem ends_pure {a : α} (h : P a s) : Ends P E (pure a : Run σ π ε α) s := by
  refine ⟨fun b u hu => ?_,fun e u hu => by simp at hu⟩
  simp only [pure_apply,Outcome.ok.injEq] at hu
  obtain ⟨rfl,rfl⟩ := hu
  exact h

theorem ends_raise {e : ε} (h : E e s) : Ends P E (raise e : Run σ π ε α) s := by
  refine ⟨fun b u hu => by simp at hu,fun e' u hu => ?_⟩
  simp only [raise_apply,Outcome.raise.injEq] at hu
  obtain ⟨rfl,rfl⟩ := hu
  exact h

theorem ends_suspend {p : π} : Ends P E (suspend p : Run σ π ε α) s :=
  ⟨fun _ _ hu => by simp at hu,fun _ _ hu => by simp at hu⟩

theorem ends_modify {f : σ → σ} {P : Unit → σ → Prop} (h : P () (f s)) :
    Ends P E (modify f : Run σ π ε Unit) s := by
  refine ⟨fun a u hu => ?_,fun e u hu => by simp at hu⟩
  simp only [modify_apply,Outcome.ok.injEq,true_and] at hu
  exact hu ▸ h

theorem ends_get {k : σ → Run σ π ε β} {P : β → σ → Prop} (h : Ends P E (k s) s) :
    Ends P E (get >>= k) s := ⟨h.ok,h.raised⟩

theorem ends_modify_bind {f : σ → σ} {k : Unit → Run σ π ε β} {P : β → σ → Prop}
    (h : Ends P E (k ()) (f s)) : Ends P E (modify f >>= k) s := ⟨h.ok,h.raised⟩

theorem Ends.ite {p : Prop} [Decidable p] {m n : Run σ π ε α} (hm : p → Ends P E m s)
    (hn : ¬p → Ends P E n s) : Ends P E (if p then m else n) s := by
  split
  · exact hm ‹_›
  · exact hn ‹_›

theorem Ends.bind {m : Run σ π ε α} {k : α → Run σ π ε β} {Q : β → σ → Prop} (hm : Ends P E m s)
    (hk : ∀ a u, P a u → Ends Q E (k a) u) : Ends Q E (m >>= k) s := by
  cases h : m s with
  | ok a u =>
    have hu := hk a u (hm.ok a u h)
    refine ⟨fun b v hv => hu.ok b v ?_,fun e v hv => hu.raised e v ?_⟩
    · rwa [bind_apply,h] at hv
    · rwa [bind_apply,h] at hv
  | raise e u =>
    refine ⟨fun b v hv => ?_,fun e' v hv => hm.raised e' v ?_⟩
    · simp [bind_apply,h] at hv
    · simpa [bind_apply,h] using hv
  | park p u =>
    refine ⟨fun b v hv => ?_,fun e v hv => ?_⟩
    · simp [bind_apply,h] at hv
    · simp [bind_apply,h] at hv

theorem ends_ofExcept {x : Except ε α} {k : α → Run σ π ε β} {P : β → σ → Prop}
    (hok : ∀ a, x = .ok a → Ends P E (k a) s) (herror : ∀ e, x = .error e → E e s) :
    Ends P E (ofExcept x >>= k) s := by
  cases x with
  | ok a => exact ⟨(hok a rfl).ok,(hok a rfl).raised⟩
  | error e =>
    have h : Ends P E (raise e : Run σ π ε β) s := ends_raise (herror e rfl)
    exact ⟨h.ok,h.raised⟩

theorem Ends.ensuring {m : Run σ π ε α} {f : σ → σ} (hm : Ends P E m s)
    (hP : ∀ a u, P a u → P' a (f u)) (hE : ∀ e u, E e u → E' e (f u)) :
    Ends P' E' (ensuring m f) s := by
  cases h : m s with
  | ok a u =>
    refine ⟨fun b v hv => ?_,fun e v hv => by simp [Run.ensuring,h] at hv⟩
    simp only [Run.ensuring,h,Outcome.ok.injEq] at hv
    obtain ⟨rfl,rfl⟩ := hv
    exact hP _ _ (hm.ok _ _ h)
  | raise e u =>
    refine ⟨fun b v hv => by simp [Run.ensuring,h] at hv,fun e' v hv => ?_⟩
    simp only [Run.ensuring,h,Outcome.raise.injEq] at hv
    obtain ⟨rfl,rfl⟩ := hv
    exact hE _ _ (hm.raised _ _ h)
  | park p u =>
    exact ⟨fun b v hv => by simp [Run.ensuring,h] at hv,fun e v hv => by simp [Run.ensuring,h] at hv⟩

end Ends

end Run

theorem except_ok_bind {ε α β : Type} (a : α) (k : α → Except ε β) : (Except.ok a >>= k) = k a := rfl

theorem except_bind_ok {ε α β : Type} {x : Except ε α} {k : α → Except ε β} {b : β} (h : (x >>= k) = .ok b) :
    ∃ a, x = .ok a ∧ k a = .ok b := by
  cases x with
  | error e => cases h
  | ok a => exact ⟨a,rfl,h⟩

/-- What every move keeps holds wherever the moves lead. -/
theorem moves_keep {M : σ → σ → Prop} {I : σ → Prop} (hI : ∀ s t, M s t → I s → I t) {s t : σ}
    (h : ReflTransGen M s t) (hs : I s) : I t := by
  induction h with
  | refl => exact hs
  | tail _ hm ih => exact hI _ _ hm ih

end HarnessSdk
