import HarnessSdk.Exclusive
import HarnessSdk.KeyClaims

/-!
# Frames of keyed messages

A claim is made by one call, and that call hands over at most one frame for its message and at most one that triggers
a response. As long as no key is claimed twice, no key has two frames of either kind.
-/

namespace HarnessSdk
namespace Session

open Transition (ReachableWith anyStep)

variable {A : Type} {c : SessionConfig A} {b : Brings} {t : TaskId} {k : TaskKind} {s s' : Session A}

/-- The keys that were claimed, newest first. -/
def claimedKeys (s : Session A) : List String := (s.log.filterMap keyClaimOf).map Prod.snd

def messageKeyOf : Observation → Option String
  | .issued _ (.inject inj) _ => inj.key
  | _ => none

def triggerKeyOf : Observation → Option String
  | .issued _ (.trigger inj) _ => inj.key
  | _ => none

/-- The keys of the messages that were handed to the connection. -/
def messageKeys (s : Session A) : List String := s.log.filterMap messageKeyOf

/-- The keys of the messages behind which a response was asked for. -/
def triggerKeys (s : Session A) : List String := s.log.filterMap triggerKeyOf

theorem mem_messageKeys {key : String} : key ∈ s.messageKeys ↔
    ∃ t inj event, .issued t (.inject inj) event ∈ s.log ∧ inj.key = some key := by
  unfold messageKeys
  rw [List.mem_filterMap]
  constructor
  · rintro ⟨o,ho,hkey⟩
    unfold messageKeyOf at hkey
    split at hkey
    · exact ⟨_,_,_,ho,hkey⟩
    · cases hkey
  · rintro ⟨t,inj,event,ho,hkey⟩
    exact ⟨_,ho,hkey⟩

theorem mem_triggerKeys {key : String} : key ∈ s.triggerKeys ↔
    ∃ t inj event, .issued t (.trigger inj) event ∈ s.log ∧ inj.key = some key := by
  unfold triggerKeys
  rw [List.mem_filterMap]
  constructor
  · rintro ⟨o,ho,hkey⟩
    unfold triggerKeyOf at hkey
    split at hkey
    · exact ⟨_,_,_,ho,hkey⟩
    · cases hkey
  · rintro ⟨t,inj,event,ho,hkey⟩
    exact ⟨_,ho,hkey⟩

theorem mem_claimedKeys {key : String} : key ∈ s.claimedKeys ↔ ∃ t, .keyClaimed t key ∈ s.log := by
  unfold claimedKeys
  rw [List.mem_map]
  constructor
  · rintro ⟨⟨t,_⟩,h,rfl⟩
    exact ⟨t,mem_keyClaims.mp h⟩
  · rintro ⟨t,h⟩
    exact ⟨(t,key),mem_keyClaims.mpr h,rfl⟩

/-- A key that was claimed once has one task. -/
theorem claimant_unique (h : s.claimedKeys.Nodup) {t t' : TaskId} {key : String} (ht : .keyClaimed t key ∈ s.log)
    (ht' : .keyClaimed t' key ∈ s.log) : t = t' := by
  have heq := List.inj_on_of_nodup_map h (mem_keyClaims.mpr ht) (mem_keyClaims.mpr ht') rfl
  exact (Prod.mk.inj heq).1

/-- Frames belong to calls that have claimed their keys, and none is handed over twice. -/
structure KeyedOnce (s : Session A) : Prop where
  message : ∀ t inj event key, .issued t (.inject inj) event ∈ s.log → inj.key = some key → .keyClaimed t key ∈ s.log
  trigger : ∀ t inj event key, .issued t (.trigger inj) event ∈ s.log → inj.key = some key → .keyClaimed t key ∈ s.log
  messages : s.claimedKeys.Nodup → s.messageKeys.Nodup
  triggers : s.claimedKeys.Nodup → s.triggerKeys.Nodup

theorem KeyedOnce.of_log (hs : KeyedOnce s) (h : s'.log = s.log) : KeyedOnce s' := by
  refine ⟨by rw [h]; exact hs.message,by rw [h]; exact hs.trigger,?_,?_⟩
  · simpa only [claimedKeys,messageKeys,h] using hs.messages
  · simpa only [claimedKeys,triggerKeys,h] using hs.triggers

/-- What is neither a claim nor a frame. -/
theorem KeyedOnce.append (hs : KeyedOnce s) {new : List Observation} (h : s'.log = new ++ s.log)
    (hnew : ∀ o ∈ new, keyClaimOf o = none ∧ ∀ t purpose event, o ≠ .issued t purpose event) : KeyedOnce s' := by
  have hold : ∀ {o}, o ∈ s.log → o ∈ s'.log := fun ho => by
    rw [h]
    exact List.mem_append_right _ ho
  have hissued : ∀ {t purpose event}, .issued t purpose event ∈ s'.log → .issued t purpose event ∈ s.log := by
    intro t purpose event ho
    rw [h] at ho
    exact (List.mem_append.mp ho).resolve_left fun hin => (hnew _ hin).2 _ _ _ rfl
  have hnone : ∀ {β : Type} {f : Observation → Option β}, (∀ o ∈ new, f o = none) →
      s'.log.filterMap f = s.log.filterMap f := by
    intro β f hf
    rw [h,List.filterMap_append,List.filterMap_eq_nil_iff.mpr hf,List.nil_append]
  have hclaims : s'.claimedKeys = s.claimedKeys := by
    unfold claimedKeys
    rw [hnone fun o ho => (hnew o ho).1]
  refine ⟨fun t inj event key ho hkey => hold (hs.message t inj event key (hissued ho) hkey),
    fun t inj event key ho hkey => hold (hs.trigger t inj event key (hissued ho) hkey),fun hn => ?_,fun hn => ?_⟩
  · have hkeys : s'.messageKeys = s.messageKeys := hnone fun o ho => by
      have hno := (hnew o ho).2
      unfold messageKeyOf
      split
      · exact absurd rfl (hno _ _ _)
      · rfl
    rw [hkeys]
    exact hs.messages (hclaims ▸ hn)
  · have hkeys : s'.triggerKeys = s.triggerKeys := hnone fun o ho => by
      have hno := (hnew o ho).2
      unfold triggerKeyOf
      split
      · exact absurd rfl (hno _ _ _)
      · rfl
    rw [hkeys]
    exact hs.triggers (hclaims ▸ hn)

theorem Move.keyedOnce (h : Move c b t k s s') (hs : KeyedOnce s) : KeyedOnce s' := by
  obtain ⟨new,hlog,hnew,_,hstream | ⟨o,rfl⟩⟩ := h.log_grows
  · refine hs.append hlog fun o ho => ?_
    have hstream := hstream o ho
    cases o with
    | put | drained | claimed => exact ⟨rfl,fun _ _ _ h => by cases h⟩
    | _ => cases hstream
  · have hlogged := hnew o List.mem_cons_self
    have hcons : s'.log = o :: s.log := hlog
    have hlift : ∀ {o'}, o' ∈ s.log → o' ∈ s'.log := fun ho => by
      rw [hcons]
      exact List.mem_cons_of_mem _ ho
    cases o with
    | keyClaimed t' key =>
      have hclaims : s'.claimedKeys = key :: s.claimedKeys := by
        unfold claimedKeys
        rw [hcons]
        rfl
      have hissued : ∀ {t purpose event}, .issued t purpose event ∈ s'.log → .issued t purpose event ∈ s.log := by
        intro t purpose event ho
        rw [hcons] at ho
        exact (List.mem_cons.mp ho).resolve_left fun heq => by cases heq
      have hmessages : s'.messageKeys = s.messageKeys := by
        unfold messageKeys
        rw [hcons]
        rfl
      have htriggers : s'.triggerKeys = s.triggerKeys := by
        unfold triggerKeys
        rw [hcons]
        rfl
      refine ⟨fun t inj event key ho hkey => hlift (hs.message t inj event key (hissued ho) hkey),
        fun t inj event key ho hkey => hlift (hs.trigger t inj event key (hissued ho) hkey),fun hn => ?_,fun hn => ?_⟩
      · rw [hmessages]
        exact hs.messages (List.nodup_cons.mp (hclaims ▸ hn)).2
      · rw [htriggers]
        exact hs.triggers (List.nodup_cons.mp (hclaims ▸ hn)).2
    | issued t' purpose event =>
      obtain ⟨rfl,hissue⟩ := hlogged
      have hclaims : s'.claimedKeys = s.claimedKeys := by
        unfold claimedKeys
        rw [hcons]
        rfl
      -- a frame of a claimed key that its call has not handed over yet
      have hcount : ∀ {f : Observation → Option String} (hf : f (.issued t' purpose event) = none ∨
          ∃ key, f (.issued t' purpose event) = some key ∧ key ∉ s.log.filterMap f),
          (s.log.filterMap f).Nodup → (s'.log.filterMap f).Nodup := by
        intro f hf hn
        rw [hcons]
        obtain hnone | ⟨key,hsome,hno⟩ := hf
        · rwa [List.filterMap_cons_none hnone]
        · rw [List.filterMap_cons_some hsome]
          exact List.nodup_cons.mpr ⟨hno,hn⟩
      cases purpose with
      | inject inj =>
        obtain ⟨_,rfl,hno,hclaimed,_⟩ := hissue
        refine ⟨fun t inj' event key ho hkey => ?_,fun t inj' event key ho hkey => ?_,fun hn => ?_,fun hn => ?_⟩
        · rw [hcons] at ho
          obtain heq | hold := List.mem_cons.mp ho
          · cases heq
            exact hlift (hclaimed key hkey)
          · exact hlift (hs.message t inj' event key hold hkey)
        · rw [hcons] at ho
          obtain heq | hold := List.mem_cons.mp ho
          · cases heq
          · exact hlift (hs.trigger t inj' event key hold hkey)
        · rw [hclaims] at hn
          refine hcount ?_ (hs.messages hn)
          cases hkey : inj.key with
          | none => exact .inl hkey
          | some key =>
            refine .inr ⟨key,hkey,fun hin => ?_⟩
            obtain ⟨t₀,inj₀,event₀,ho,hkey₀⟩ := mem_messageKeys.mp hin
            obtain rfl := claimant_unique hn (hs.message _ _ _ _ ho hkey₀) (hclaimed key hkey)
            exact (hno inj₀ event₀).1 ho
        · rw [hclaims] at hn
          exact hcount (.inl rfl) (hs.triggers hn)
      | trigger inj =>
        obtain ⟨_,hno,hinjected,_⟩ := hissue
        have hclaimed : ∀ key, inj.key = some key → .keyClaimed t' key ∈ s.log :=
          fun key hkey => hs.message _ _ _ _ hinjected hkey
        refine ⟨fun t inj' event key ho hkey => ?_,fun t inj' event key ho hkey => ?_,fun hn => ?_,fun hn => ?_⟩
        · rw [hcons] at ho
          obtain heq | hold := List.mem_cons.mp ho
          · cases heq
          · exact hlift (hs.message t inj' event key hold hkey)
        · rw [hcons] at ho
          obtain heq | hold := List.mem_cons.mp ho
          · cases heq
            exact hlift (hclaimed key hkey)
          · exact hlift (hs.trigger t inj' event key hold hkey)
        · rw [hclaims] at hn
          exact hcount (.inl rfl) (hs.messages hn)
        · rw [hclaims] at hn
          refine hcount ?_ (hs.triggers hn)
          cases hkey : inj.key with
          | none => exact .inl hkey
          | some key =>
            refine .inr ⟨key,hkey,fun hin => ?_⟩
            obtain ⟨t₀,inj₀,event₀,ho,hkey₀⟩ := mem_triggerKeys.mp hin
            obtain rfl := claimant_unique hn (hs.trigger _ _ _ _ ho hkey₀) (hclaimed key hkey)
            exact hno inj₀ event₀ ho
      | _ =>
        refine ⟨fun t inj' event key ho hkey => ?_,fun t inj' event key ho hkey => ?_,fun hn => ?_,fun hn => ?_⟩
        · rw [hcons] at ho
          obtain heq | hold := List.mem_cons.mp ho
          · cases heq
          · exact hlift (hs.message t inj' event key hold hkey)
        · rw [hcons] at ho
          obtain heq | hold := List.mem_cons.mp ho
          · cases heq
          · exact hlift (hs.trigger t inj' event key hold hkey)
        · exact hcount (.inl rfl) (hs.messages (hclaims ▸ hn))
        · exact hcount (.inl rfl) (hs.triggers (hclaims ▸ hn))
    | _ => exact hs.append hlog (by simp [keyClaimOf])

theorem keyedOnce_invariant : Invariant c anyStep KeyedOnce fun _ _ _ s => KeyedOnce s where
  start shared id := by
    constructor <;> simp [useId,fresh,messageKeys,triggerKeys]
  wake _ hs _ hst := hs.of_log (by rw [hst.frame])
  move _ hm hs := hm.keyedOnce hs
  park _ _ _ hs _ := hs.of_log rfl
  stop _ _ _ hs _ := hs.of_log rfl
  consume _ hs h := by
    obtain ⟨_,_,new,rfl,hnew⟩ := consume_frame h
    refine hs.append rfl fun o ho => ?_
    obtain ⟨event,rfl⟩ := hnew o ho
    exact ⟨rfl,fun _ _ _ h => by cases h⟩
  interfere _ hs := hs.of_log rfl

/-! What is claimed. -/

/-- The keys that the recovery record knows. -/
def takenKeys (state : SessionState) : Set String := {key | state.messages.get key ≠ none}

/-- A claim enters its key in the recovery record, which did not know it. -/
theorem Move.takes_keys (h : Move c b t k s s') :
    Takes (takenKeys s.shared.state) (takenKeys s'.shared.state) (s.claimedKeys : Multiset String) s'.claimedKeys := by
  have hkept : takenKeys s.shared.state ⊆ takenKeys s'.shared.state := fun key hkey => h.key_kept hkey
  have hnone : ∀ {new : List Observation}, s'.log = new ++ s.log → (∀ o ∈ new, keyClaimOf o = none) →
      (s'.claimedKeys : Multiset String) = s.claimedKeys := by
    intro new hlog hnew
    unfold claimedKeys
    rw [hlog,List.filterMap_append,List.filterMap_eq_nil_iff.mpr hnew,List.nil_append]
  obtain ⟨new,hlog,hnew,_,hstream | ⟨o,rfl⟩⟩ := h.log_grows
  · refine .of_same hkept (hnone hlog fun o ho => ?_)
    have hstream := hstream o ho
    cases o with
    | put | drained | claimed => rfl
    | _ => cases hstream
  · cases o with
    | keyClaimed t' key =>
      obtain ⟨_,_,text,role,trigger,state,_,hclaim,hstate⟩ := hnew _ List.mem_cons_self
      obtain ⟨hfree,entry,hset⟩ := claimMessage_free hclaim
      have hkeys : (s'.claimedKeys : Multiset String) = key ::ₘ s.claimedKeys := by
        unfold claimedKeys
        rw [hlog]
        rfl
      rw [hkeys]
      exact .one hkept (fun hin => hin hfree) (by simp [takenKeys,hstate,hset])
    | _ => exact .of_same hkept (hnone hlog (by simp [keyClaimOf]))

theorem moves_take_keys (h : Moves c b t k s s') :
    Takes (takenKeys s.shared.state) (takenKeys s'.shared.state) (s.claimedKeys : Multiset String) s'.claimedKeys := by
  induction h with
  | refl => exact .refl _ _
  | tail _ hm ih => exact ih.trans hm.takes_keys

end Session
end HarnessSdk
