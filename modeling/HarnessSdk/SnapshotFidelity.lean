import HarnessSdk.IdentityTable
import Mathlib.Data.List.Sort

/-!
# Snapshots and what they give back

A snapshot that is accepted restores the same generation, tool calls, completed inputs and message
keys, and of the identity table exactly the groups that the next generation keeps.
-/

namespace HarnessSdk

open Transition (ReachableWith anyStep)

/-- The items that a snapshot records and a new generation keeps. -/
def RealtimeItemIdentity.lasting (item : RealtimeItemIdentity) : Bool := item.role == .user && item.confirmed

namespace RealtimeIdentityTable

variable {t t' : RealtimeIdentityTable}

theorem mem_sortedItems {e : String × RealtimeItemIdentity} : e ∈ sortedItems t ↔ t.lookup e.1 = some e.2 := by
  rw [sortedItems,(List.mergeSort_perm _ _).mem_iff,lookup,Dict.get_eq_some_iff]

theorem sortedItems_sorted (t : RealtimeIdentityTable) : (sortedItems t).Pairwise fun a b => a.1 < b.1 := by
  have hle : (sortedItems t).Pairwise fun a b => a.1 ≤ b.1 := by
    have hsorted : (sortedItems t).Pairwise fun a b => decide (a.1 ≤ b.1) := List.pairwise_mergeSort
      (fun a b c hab hbc => by simpa using (of_decide_eq_true hab).trans (of_decide_eq_true hbc))
      (fun a b => by simpa using le_total a.1 b.1) t.items.entries
    simpa using hsorted
  have hne : (sortedItems t).Pairwise fun a b => a.1 ≠ b.1 := by
    have hnodup : ((sortedItems t).map Prod.fst).Nodup := by
      refine (List.Perm.nodup_iff ?_).mpr t.items.nodup
      exact (List.mergeSort_perm _ _).map _
    exact List.pairwise_map.mp hnodup
  exact (hle.and hne).imp fun h => lt_of_le_of_ne h.1 h.2

theorem mem_snapshot {item : RealtimeItemIdentity} :
    item ∈ t.snapshot ↔ t.lookup item.canonicalId = some item ∧ item.lasting := by
  simp only [snapshot,List.mem_map,List.mem_filter,mem_sortedItems,snapshotItem,RealtimeItemIdentity.lasting]
  constructor
  · rintro ⟨⟨k,i⟩,⟨hk,hkept⟩,rfl⟩
    simp only [Bool.and_eq_true,beq_iff_eq] at hkept ⊢
    obtain ⟨⟨rfl,hrole⟩,hconfirmed⟩ := hkept
    exact ⟨hk,hrole,hconfirmed⟩
  · rintro ⟨hk,hkept⟩
    exact ⟨(item.canonicalId,item),⟨hk,by simpa using hkept⟩,rfl⟩

theorem snapshot_sorted (t : RealtimeIdentityTable) : t.snapshot.Pairwise fun a b => a.canonicalId < b.canonicalId := by
  unfold snapshot
  rw [List.pairwise_map]
  have hfilter := (sortedItems_sorted t).filter fun e => snapshotItem e.1 e.2
  refine hfilter.imp_of_mem fun {a b} ha hb hab => ?_
  have hkey : ∀ {e : String × RealtimeItemIdentity}, e ∈ (sortedItems t).filter (fun e => snapshotItem e.1 e.2) →
      e.1 = e.2.canonicalId := by
    intro e he
    have hkept := (List.mem_filter.mp he).2
    simp only [snapshotItem,Bool.and_eq_true,beq_iff_eq] at hkept
    exact hkept.1.1
  rwa [← hkey ha,← hkey hb]

theorem snapshot_congr (h : ∀ item, item ∈ t.snapshot ↔ item ∈ t'.snapshot) : t.snapshot = t'.snapshot := by
  have hnodup : ∀ u : RealtimeIdentityTable, u.snapshot.Nodup := fun u =>
    (snapshot_sorted u).imp fun hlt heq => absurd (heq ▸ hlt) (lt_irrefl _)
  refine List.Perm.eq_of_pairwise ?_ (snapshot_sorted t) (snapshot_sorted t')
    ((List.perm_ext_iff_of_nodup (hnodup t) (hnodup t')).mpr h)
  intro a b _ _ hab hba
  exact absurd (hab.trans hba) (lt_irrefl _)

/-- Every name of a well-formed table that lasts is recorded under its canonical id. -/
theorem WellFormed.recorded (h : t.WellFormed) {k : String} {item : RealtimeItemIdentity} (hk : t.lookup k = some item) :
    item ∈ t.snapshot ↔ item.lasting := by
  rw [mem_snapshot,h.canonical hk]
  simp

theorem mapM_identityJson {names names' : List String} (h : (names.map Json.str).mapM identityJson = .ok names') :
    names' = names := by
  induction names generalizing names' with
  | nil => exact (Except.ok.inj h).symm
  | cons name names ih =>
    rw [List.map_cons,List.mapM_cons] at h
    obtain ⟨first,hfirst,h⟩ := except_bind_ok h
    obtain ⟨rest,hrest,h⟩ := except_bind_ok h
    rw [← Except.ok.inj h,ih hrest,identity_eq hfirst]

/-- What has been restored of a table so far: the groups of the items that are done. -/
def Restored (t : RealtimeIdentityTable) (done : List RealtimeItemIdentity) (u : RealtimeIdentityTable) : Prop :=
  u.generation = t.generation ∧ ∀ k, u.lookup k = (t.lookup k).filter fun item => decide (item ∈ done)

theorem restored_item (h : t.WellFormed) {done : List RealtimeItemIdentity} {u u' : RealtimeIdentityTable}
    (hu : t.Restored done u) {item : RealtimeItemIdentity} (hitem : item ∈ t.snapshot) (hnew : item ∉ done)
    (hr : restoreIdentity t.generation u item.asdict = .ok u') : t.Restored (done ++ [item]) u' := by
  obtain ⟨hlookup,hlasting⟩ := mem_snapshot.mp hitem
  simp only [RealtimeItemIdentity.lasting,Bool.and_eq_true,beq_iff_eq] at hlasting
  obtain ⟨o,g,source,aliases,origin,id,names,t₁,i,ho,hg,-,hsource,haliases,horigin,hknown,hid,hnames,hr,rfl⟩ :=
    restoreIdentity_cases hr
  obtain rfl := Json.obj.inj ho
  have hg : (item.generation : ℤ) = g := by simpa [Json.field,Json.asInt] using hg
  have hsource : item.source = source := by simpa [Json.field,Json.asString] using hsource
  have haliases : item.aliases.map Json.str = aliases := by simpa [Json.field,Json.asList] using haliases
  have horigin : item.origin = some origin := by
    cases hfield : item.origin with
    | none => simp [recordedOrigin,Json.field,Json.asString,hfield] at horigin
    | some origin' => simpa [recordedOrigin,Json.field,Json.asString,hfield] using horigin
  have hid : id = item.canonicalId := by
    refine identity_eq ?_
    simpa [Json.field,identityJson] using hid
  obtain rfl := haliases
  obtain rfl := mapM_identityJson hnames
  obtain rfl := hid
  have hfree : u.lookup item.canonicalId = none := by
    rw [hu.2,hlookup]
    simp [hnew]
  -- the registration finds nothing and stores the recorded item again
  obtain ⟨-,hlookup',-⟩ | ⟨rfl,hi,-⟩ := register_cases hr
  · have hsome : u.lookup item.canonicalId = some i := hlookup'
    simp [hfree] at hsome
  have hsame : i = item := by
    have hne : origin ≠ "" := by
      rintro rfl
      exact absurd hknown (by decide)
    have hnone : ({ u with generation := g.toNat } : RealtimeIdentityTable).lookup item.canonicalId = none := hfree
    rw [hi]
    unfold registered
    rw [hnone]
    dsimp only
    rw [fromKeys_again (h.once _ _ hlookup) (h.head _ _ hlookup),textOr,if_neg hne,← hsource,← hg,← horigin,
      ← hlasting.1,← hlasting.2]
    rfl
  subst hsame
  refine ⟨rfl,fun k => ?_⟩
  have hassign : ({ ({ u with generation := g.toNat } : RealtimeIdentityTable).assign i i.aliases with
      generation := t.generation } : RealtimeIdentityTable).lookup k = if k ∈ i.aliases then some i else u.lookup k :=
    lookup_assign i i.aliases { u with generation := g.toNat } k
  rw [hassign]
  by_cases hk : k ∈ i.aliases
  · rw [if_pos hk,h.group _ _ hlookup k hk,Option.filter_some,if_pos]
    simp
  · rw [if_neg hk,hu.2]
    cases hold : t.lookup k with
    | none => rfl
    | some old =>
      have hne : old ≠ i := by
        rintro rfl
        exact hk (h.own k old hold)
      simp [Option.filter_some,hne]

theorem restored_items (h : t.WellFormed) {items done : List RealtimeItemIdentity} {u u' : RealtimeIdentityTable}
    (hu : t.Restored done u) (hitems : ∀ item ∈ items, item ∈ t.snapshot) (hnodup : (done ++ items).Nodup)
    (hr : (items.map RealtimeItemIdentity.asdict).foldlM (restoreIdentity t.generation) u = .ok u') :
    t.Restored (done ++ items) u' := by
  induction items generalizing done u with
  | nil =>
    obtain rfl := Except.ok.inj hr
    rwa [List.append_nil]
  | cons item items ih =>
    rw [List.map_cons,List.foldlM_cons] at hr
    obtain ⟨u₁,hitem,hr⟩ := except_bind_ok hr
    have hnew : item ∉ done := by
      intro hin
      rw [List.nodup_append] at hnodup
      exact hnodup.2.2 item hin item List.mem_cons_self rfl
    have hu₁ := restored_item h hu (hitems item List.mem_cons_self) hnew hitem
    have hrest := ih hu₁ (fun item hin => hitems item (List.mem_cons_of_mem _ hin)) (by simpa using hnodup) hr
    simpa using hrest

/-- The restored table knows the lasting items, under all their names, and nothing else. -/
theorem restored_table (h : t.WellFormed) (hr : (t.snapshot.map RealtimeItemIdentity.asdict).foldlM
    (restoreIdentity t.generation) { generation := t.generation } = .ok t') :
    t'.generation = t.generation ∧ ∀ k, t'.lookup k = (t.lookup k).filter RealtimeItemIdentity.lasting := by
  have hstart : t.Restored [] { generation := t.generation } := by
    refine ⟨rfl,fun k => ?_⟩
    cases t.lookup k <;> rfl
  have hnodup : ([] ++ t.snapshot).Nodup :=
    (snapshot_sorted t).imp fun hlt heq => absurd (heq ▸ hlt) (lt_irrefl _)
  obtain ⟨hgeneration,hlookup⟩ := restored_items h hstart (fun item hin => hin) hnodup hr
  refine ⟨hgeneration,fun k => ?_⟩
  rw [hlookup]
  cases hk : t.lookup k with
  | none => rfl
  | some item =>
    have hrecorded : decide (item ∈ [] ++ t.snapshot) = item.lasting := by
      rw [Bool.eq_iff_iff,decide_eq_true_iff,List.nil_append]
      exact h.recorded hk
    rw [Option.filter_some,Option.filter_some,hrecorded]

end RealtimeIdentityTable

open RealtimeIdentityTable

/-! One session of the recovery state. -/

/-- Two sessions that no caller can tell apart once a new generation has begun. -/
structure SessionState.Alike (s s' : SessionState) : Prop where
  generation : s'.table.generation = s.table.generation
  lookup : ∀ k, s'.table.lookup k = (s.table.lookup k).filter RealtimeItemIdentity.lasting
  toolCalls : s'.toolCalls = s.toolCalls
  completedInputs : s'.completedInputs = s.completedInputs
  messages : s'.messages = s.messages

theorem restoreMessage_asdict {t : RealtimeIdentityTable} {messages messages' : Dict String MessageEntry} {key : String}
    {m : MessageEntry} (h : restoreMessage t messages (key,m.asdict) = .ok messages') : messages' = messages.set key m := by
  obtain ⟨digest,status⟩ := m
  cases status with
  | pending itemId =>
    simp [restoreMessage,MessageEntry.asdict,Json.field,Json.asString,-bind_pure_comp] at h
    obtain ⟨-,h⟩ := valueError_guard h
    obtain ⟨-,h⟩ := valueError_guard h
    obtain ⟨status,hstatus,h⟩ := except_bind_ok h
    obtain ⟨key',hkey,h⟩ := except_bind_ok h
    rw [← Except.ok.inj h,← Except.ok.inj hstatus,identity_eq hkey]
  | confirmed itemId =>
    simp [restoreMessage,MessageEntry.asdict,Json.field,Json.asString,-bind_pure_comp] at h
    obtain ⟨-,h⟩ := valueError_guard h
    obtain ⟨-,h⟩ := valueError_guard h
    obtain ⟨status,hstatus,h⟩ := except_bind_ok h
    obtain ⟨key',hkey,h⟩ := except_bind_ok h
    have hsame : status = .confirmed itemId := by
      by_cases hknown : t.lookup itemId = none
      · rw [if_pos hknown] at hstatus
        exact nomatch hstatus
      · rw [if_neg hknown] at hstatus
        exact (Except.ok.inj hstatus).symm
    rw [← Except.ok.inj h,hsame,identity_eq hkey]

/-- Entries that are set one after the other stand behind what was there. -/
theorem entries_of_sets {σ α β ν : Type} (dict : σ → Dict String ν) {put : σ → String × β → Except Exn σ}
    {f : α → β} {R : α → ν → Prop}
    (hput : ∀ d k a d', put d (k,f a) = .ok d' → ∃ v, R a v ∧ dict d' = (dict d).set k v)
    {es : List (String × α)} {d d' : σ} (hnodup : (es.map Prod.fst).Nodup) (hnew : ∀ e ∈ es, e.1 ∉ dict d)
    (h : (es.map fun e => (e.1,f e.2)).foldlM put d = .ok d') :
    ∃ vs, (dict d').entries = (dict d).entries ++ vs ∧ List.Forall₂ (fun e v => v.1 = e.1 ∧ R e.2 v.2) es vs := by
  induction es generalizing d with
  | nil =>
    obtain rfl := Except.ok.inj h
    exact ⟨[],by simp,.nil⟩
  | cons e es ih =>
    rw [List.map_cons,List.foldlM_cons] at h
    obtain ⟨d₁,hd₁,h⟩ := except_bind_ok h
    obtain ⟨v,hv,hset⟩ := hput d e.1 e.2 d₁ hd₁
    rw [List.map_cons,List.nodup_cons] at hnodup
    have hnew' : ∀ e' ∈ es, e'.1 ∉ dict d₁ := by
      intro e' he' hin
      rw [hset] at hin
      obtain heq | hin := Dict.mem_set.mp hin
      · exact hnodup.1 (List.mem_map.mpr ⟨e',he',heq⟩)
      · exact hnew e' (List.mem_cons_of_mem _ he') hin
    obtain ⟨vs,hvs,hrel⟩ := ih hnodup.2 hnew' h
    refine ⟨(e.1,v) :: vs,?_,.cons ⟨rfl,hv⟩ hrel⟩
    rw [hvs,hset,Dict.entries_set_of_notMem v (hnew e List.mem_cons_self)]
    simp

theorem restored_messages {t : RealtimeIdentityTable} {messages messages' : Dict String MessageEntry}
    (h : (messages.entries.map fun e => (e.1,e.2.asdict)).foldlM (restoreMessage t) ∅ = .ok messages') :
    messages' = messages := by
  obtain ⟨vs,hvs,hrel⟩ := entries_of_sets id (R := fun m v => v = m)
    (fun d k m d' hd => ⟨m,rfl,restoreMessage_asdict hd⟩) messages.nodup (fun e _ => Dict.get_eq_none.mp (Dict.get_empty e.1)) h
  have hsame : vs = messages.entries := by
    have heq : List.Forall₂ (fun a b => a = b) messages.entries vs :=
      hrel.imp fun a b hab => (Prod.ext hab.1 hab.2).symm
    rw [List.forall₂_eq_eq_eq] at heq
    exact heq.symm
  have hentries : messages'.entries = messages.entries := by
    rw [← hsame]
    exact hvs
  cases messages
  cases messages'
  simpa using hentries

/-- A session is restored from the parts of its record. -/
theorem restoreSession_cases {record : Json} {s : SessionState} (h : restoreSession record = .ok s) :
    ∃ o generation identities toolCalls completedInputs messages toolCalls' completedInputs', record = .obj o ∧
      Json.asInt (Json.field o "generation") = some generation ∧ Json.asList (Json.field o "identities") = some identities ∧
      Json.asList (Json.field o "tool_calls") = some toolCalls ∧
      Json.asList (Json.field o "completed_inputs") = some completedInputs ∧
      Json.asObject (Json.field o "messages") = some messages ∧
      identities.foldlM (restoreIdentity generation.toNat) { generation := generation.toNat } = .ok s.table ∧
      toolCalls.mapM identityJson = .ok toolCalls' ∧ completedInputs.mapM identityJson = .ok completedInputs' ∧
      messages.foldlM (restoreMessage s.table) ∅ = .ok s.messages ∧
      s.toolCalls = toolCalls'.toFinset ∧ s.completedInputs = completedInputs'.toFinset := by
  unfold restoreSession at h
  cases record with
  | null | bool | int | float | nonfinite | str | arr => exact nomatch h
  | obj o =>
    dsimp only at h
    obtain ⟨-,h⟩ := valueError_guard h
    cases hg : Json.asInt (Json.field o "generation") with
    | none => rw [hg] at h; exact nomatch h
    | some generation =>
      rw [hg] at h
      obtain ⟨-,h⟩ := valueError_guard h
      cases hi : Json.asList (Json.field o "identities") with
      | none => rw [hi] at h; exact nomatch h
      | some identities =>
        cases ht : Json.asList (Json.field o "tool_calls") with
        | none => rw [hi,ht] at h; exact nomatch h
        | some toolCalls =>
          cases hc : Json.asList (Json.field o "completed_inputs") with
          | none => rw [hi,ht,hc] at h; exact nomatch h
          | some completedInputs =>
            cases hm : Json.asObject (Json.field o "messages") with
            | none => rw [hi,ht,hc,hm] at h; exact nomatch h
            | some messages =>
              rw [hi,ht,hc,hm] at h
              obtain ⟨-,h⟩ := valueError_guard h
              obtain ⟨table,htable,h⟩ := except_bind_ok h
              obtain ⟨toolCalls',htool,h⟩ := except_bind_ok h
              obtain ⟨completedInputs',hcompleted,h⟩ := except_bind_ok h
              obtain ⟨messages',hmessages,h⟩ := except_bind_ok h
              obtain rfl := Except.ok.inj h
              exact ⟨o,generation,identities,toolCalls,completedInputs,messages,toolCalls',completedInputs',rfl,hg,hi,ht,
                hc,hm,htable,htool,hcompleted,hmessages,rfl,rfl⟩

theorem restoreSession_snapshot {s s' : SessionState} (hwf : s.table.WellFormed)
    (h : restoreSession s.snapshot = .ok s') : s.Alike s' := by
  obtain ⟨o,generation,identities,toolCalls,completedInputs,messages,toolCalls',completedInputs',ho,hg,hi,ht,hc,hm,
    htable,htool,hcompleted,hmessages,htools,hinputs⟩ := restoreSession_cases h
  obtain rfl := Json.obj.inj ho
  obtain rfl : (s.table.generation : ℤ) = generation := Option.some.inj hg
  obtain rfl : s.table.snapshot.map RealtimeItemIdentity.asdict = identities := Option.some.inj hi
  obtain rfl : (s.toolCalls.sort (· ≤ ·)).map Json.str = toolCalls := Option.some.inj ht
  obtain rfl : (s.completedInputs.sort (· ≤ ·)).map Json.str = completedInputs := Option.some.inj hc
  obtain rfl : s.messages.entries.map (fun e => (e.1,e.2.asdict)) = messages := Option.some.inj hm
  rw [Int.toNat_natCast] at htable
  obtain ⟨hgeneration,hlookup⟩ := restored_table hwf htable
  refine ⟨hgeneration,hlookup,?_,?_,restored_messages hmessages⟩
  · rw [htools,mapM_identityJson htool,Finset.sort_toFinset]
  · rw [hinputs,mapM_identityJson hcompleted,Finset.sort_toFinset]

theorem restoreSession_wellFormed {record : Json} {s : SessionState} (h : restoreSession record = .ok s) :
    s.table.WellFormed := by
  obtain ⟨_,generation,identities,_,_,_,_,_,_,_,_,_,_,_,htable,_⟩ := restoreSession_cases h
  have hfold : ∀ (records : List Json) (t : RealtimeIdentityTable), t.WellFormed →
      records.foldlM (restoreIdentity generation.toNat) t = .ok s.table → s.table.WellFormed := by
    intro records
    induction records with
    | nil =>
      intro t ht hr
      rwa [← Except.ok.inj hr]
    | cons record records ih =>
      intro t ht hr
      rw [List.foldlM_cons] at hr
      obtain ⟨u,hu,hr⟩ := except_bind_ok hr
      have hstep : t.step (.restore generation.toNat record) = some u := by
        rw [RealtimeIdentityTable.step,hu]
        rfl
      exact ih u (ht.step hstep) hr
  exact hfold identities _ (wellFormed_empty _) htable

section Alike

variable {s s' : SessionState}

theorem alike_default : ({} : SessionState).Alike {} := ⟨rfl,fun _ => rfl,rfl,rfl,rfl⟩

theorem SessionState.Alike.snapshot (h : s.Alike s') : s'.snapshot = s.snapshot := by
  have htable : s'.table.snapshot = s.table.snapshot := by
    apply snapshot_congr
    intro item
    rw [mem_snapshot,mem_snapshot,h.lookup,Option.filter_eq_some_iff]
    tauto
  unfold SessionState.snapshot
  rw [htable,h.generation,h.toolCalls,h.completedInputs,h.messages]

theorem SessionState.Alike.claimMessage (h : s.Alike s') (key digest : String) :
    (s'.claimMessage key digest).map Prod.fst = (s.claimMessage key digest).map Prod.fst := by
  unfold SessionState.claimMessage
  rw [h.messages]
  cases hkey : identity key with
  | error e => rfl
  | ok key =>
    rw [except_ok_bind,except_ok_bind]
    cases hentry : s.messages.get key with
    | none => rfl
    | some entry =>
      dsimp only
      by_cases hdigest : entry.digest ≠ digest
      · rw [if_pos hdigest,if_pos hdigest]
      · rw [if_neg hdigest,if_neg hdigest]
        cases entry.status <;> rfl

/-- A new generation makes the two tables equal. -/
theorem SessionState.Alike.beginSession (h : s.Alike s') (minimumGeneration : ℕ) :
    (s'.beginSession minimumGeneration).1 = (s.beginSession minimumGeneration).1 ∧
      ∀ k, (s'.beginSession minimumGeneration).2.table.lookup k = (s.beginSession minimumGeneration).2.table.lookup k := by
  refine ⟨by simp only [SessionState.beginSession,h.generation],fun k => ?_⟩
  simp only [SessionState.beginSession,lookup_beginGeneration,h.lookup]
  rw [Option.filter_filter]
  congr 1
  funext item
  simp [RealtimeItemIdentity.lasting]

end Alike

theorem get_forall₂ {ν ν' : Type} {R : ν → ν' → Prop} {es : List (String × ν)} {vs : List (String × ν')}
    (h : List.Forall₂ (fun e v => v.1 = e.1 ∧ R e.2 v.2) es vs) (k : String) :
    (Entries.get k es = none ∧ Entries.get k vs = none) ∨
      ∃ a v, Entries.get k es = some a ∧ Entries.get k vs = some v ∧ R a v := by
  induction h with
  | nil => exact .inl ⟨rfl,rfl⟩
  | @cons e v es vs hev _ ih =>
    by_cases hk : e.1 = k
    · exact .inr ⟨e.2,v.2,by simp [Entries.get,hk],by simp [Entries.get,hev.1,hk],hev.2⟩
    · simpa [Entries.get,hev.1,hk] using ih

namespace RealtimeRecoveryState

variable {r s : RealtimeRecoveryState}

/-- A recovery state is restored session by session. -/
theorem fromSnapshot_cases {value : Json} (h : fromSnapshot value = .ok r) : ∃ o sessions, value = .obj o ∧
    Json.asObject (Json.field o "sessions") = some sessions ∧
    sessions.foldlM (fun (r : RealtimeRecoveryState) e => do
      let key ← identity e.1
      let s ← restoreSession e.2
      return r.update key s) {} = .ok r := by
  unfold fromSnapshot at h
  cases value with
  | null | bool | int | float | nonfinite | str | arr => exact nomatch h
  | obj o =>
    dsimp only at h
    obtain ⟨-,h⟩ := valueError_guard h
    cases hs : Json.asObject (Json.field o "sessions") with
    | none => rw [hs] at h; exact nomatch h
    | some sessions =>
      rw [hs] at h
      obtain ⟨-,h⟩ := valueError_guard h
      exact ⟨o,sessions,rfl,hs,h⟩

def WellFormed (r : RealtimeRecoveryState) : Prop := ∀ ext s, r.sessions.get ext = some s → s.table.WellFormed

theorem WellFormed.session (h : r.WellFormed) (ext : String) : (r.session ext).table.WellFormed := by
  unfold RealtimeRecoveryState.session
  cases hs : r.sessions.get ext with
  | none => exact wellFormed_empty 0
  | some s => exact h ext s hs

theorem WellFormed.update (h : r.WellFormed) {s : SessionState} (hs : s.table.WellFormed) (ext : String) :
    (r.update ext s).WellFormed := by
  intro ext' s' hs'
  unfold RealtimeRecoveryState.update at hs'
  rw [Dict.get_set] at hs'
  by_cases hext : ext' = ext
  · rw [if_pos hext] at hs'
    rwa [← Option.some.inj hs']
  · rw [if_neg hext] at hs'
    exact h ext' s' hs'

theorem fromSnapshot_wellFormed {value : Json} (h : fromSnapshot value = .ok r) : r.WellFormed := by
  obtain ⟨_,sessions,-,-,h⟩ := fromSnapshot_cases h
  have hfold : ∀ (sessions : Json.Object) (u : RealtimeRecoveryState), u.WellFormed → sessions.foldlM
      (fun (r : RealtimeRecoveryState) e => do
        let key ← identity e.1
        let s ← restoreSession e.2
        return r.update key s) u = .ok r → r.WellFormed := by
    intro sessions
    induction sessions with
    | nil =>
      intro u hu hr
      rwa [← Except.ok.inj hr]
    | cons e es ih =>
      intro u hu hr
      rw [List.foldlM_cons] at hr
      obtain ⟨u',hu',hr⟩ := except_bind_ok hr
      obtain ⟨key,hkey,hu'⟩ := except_bind_ok hu'
      obtain ⟨state,hstate,hu'⟩ := except_bind_ok hu'
      obtain rfl := Except.ok.inj hu'
      exact ih _ (hu.update (restoreSession_wellFormed hstate) key) hr
  refine hfold sessions {} ?_ h
  intro ext s hs
  exact nomatch hs

/-- The restored sessions stand in the order of the recorded ones. -/
theorem fromSnapshot_snapshot (hwf : s.WellFormed) (h : fromSnapshot s.snapshot = .ok r) :
    List.Forall₂ (fun e v => v.1 = e.1 ∧ e.2.Alike v.2) s.sessions.entries r.sessions.entries := by
  obtain ⟨o,sessions,ho,hs,h⟩ := fromSnapshot_cases h
  obtain rfl := Json.obj.inj ho
  obtain rfl : s.sessions.entries.map (fun e => (e.1,e.2.snapshot)) = sessions := Option.some.inj hs
  have hput : ∀ (d : RealtimeRecoveryState) (k : String) (a : SessionState) (d' : RealtimeRecoveryState), (do
      let key ← identity k
      let s ← restoreSession a.snapshot
      return d.update key s) = Except.ok d' →
        ∃ v, (a.table.WellFormed → a.Alike v) ∧ d'.sessions = d.sessions.set k v := by
    intro d k a d' hd
    obtain ⟨key,hkey,hd⟩ := except_bind_ok hd
    obtain ⟨state,hstate,hd⟩ := except_bind_ok hd
    obtain rfl := Except.ok.inj hd
    obtain rfl := identity_eq hkey
    exact ⟨state,fun ha => restoreSession_snapshot ha hstate,rfl⟩
  obtain ⟨vs,hvs,hrel⟩ := entries_of_sets RealtimeRecoveryState.sessions hput s.sessions.nodup
    (fun e _ => Dict.get_eq_none.mp (Dict.get_empty e.1)) h
  have hall : List.Forall₂ (fun e v => v.1 = e.1 ∧ e.2.Alike v.2) s.sessions.entries vs := by
    refine List.forall₂_iff_zip.mpr ⟨hrel.length_eq,fun {e v} hev => ?_⟩
    have hin := (List.of_mem_zip hev).1
    obtain ⟨hkey,halike⟩ := List.forall₂_zip hrel hev
    exact ⟨hkey,halike (hwf e.1 e.2 (Dict.get_eq_some_iff.mpr hin))⟩
  rw [hvs]
  exact hall

theorem session_alike (hwf : s.WellFormed) (h : fromSnapshot s.snapshot = .ok r) (ext : String) :
    (s.session ext).Alike (r.session ext) := by
  unfold session Dict.get
  obtain ⟨hs,hr⟩ | ⟨a,v,hs,hr,halike⟩ := get_forall₂ (fromSnapshot_snapshot hwf h) ext
  · rw [hs,hr]
    exact alike_default
  · rw [hs,hr]
    exact halike

theorem snapshot_again (hwf : s.WellFormed) (h : fromSnapshot s.snapshot = .ok r) : r.snapshot = s.snapshot := by
  have hmap : ∀ es vs : List (String × SessionState), List.Forall₂ (fun e v => v.1 = e.1 ∧ e.2.Alike v.2) es vs →
      vs.map (fun e => (e.1,e.2.snapshot)) = es.map fun e => (e.1,e.2.snapshot) := by
    intro es vs hrel
    induction hrel with
    | nil => rfl
    | cons hev _ ih => rw [List.map_cons,List.map_cons,ih,hev.1,hev.2.snapshot]
  unfold snapshot
  rw [hmap _ _ (fromSnapshot_snapshot hwf h)]

/-! Histories of a recovery state. -/

/-- What can be done to one session: the callers hold the table and the two sets themselves. -/
inductive SessionAction
  | touch
  | beginSession (minimumGeneration : ℕ)
  | register (itemId : String) (role : Role) (source : String) (confirmed : Bool) (aliases : List String)
      (origin : Option String)
  | toolCalls (names : Finset String)
  | completedInputs (names : Finset String)
  | claimMessage (key digest : String)
  | confirmMessage (key itemId : String)

def perform (s : SessionState) : SessionAction → SessionState
  | .touch => s
  | .beginSession minimumGeneration => (s.beginSession minimumGeneration).2
  | .register itemId role source confirmed aliases origin =>
    { s with table := (registerInto itemId role source confirmed aliases origin s.table).state }
  | .toolCalls names => { s with toolCalls := names }
  | .completedInputs names => { s with completedInputs := names }
  | .claimMessage key digest =>
    match s.claimMessage key digest with
    | .ok (_,s') => s'
    | .error _ => s
  | .confirmMessage key itemId =>
    match s.confirmMessage key itemId with
    | .ok s' => s'
    | .error _ => s

/-- Every operation asks for the session first, which creates it, and an invalid session id raises. -/
def step (r : RealtimeRecoveryState) (a : String × SessionAction) : Option RealtimeRecoveryState :=
  some (if validIdentity a.1 then r.update a.1 (perform (r.session a.1) a.2) else r)

/-- A recovery state is made new, or from a snapshot. -/
def Begun (r : RealtimeRecoveryState) : Prop := r = {} ∨ ∃ value, fromSnapshot value = .ok r

theorem perform_wellFormed {s : SessionState} (h : s.table.WellFormed) (a : SessionAction) :
    (perform s a).table.WellFormed := by
  cases a with
  | touch => exact h
  | beginSession minimumGeneration => exact h.beginGeneration _
  | register itemId role source confirmed aliases origin =>
    have hstep : s.table.step (.register itemId role source confirmed aliases origin) =
      some (registerInto itemId role source confirmed aliases origin s.table).state := rfl
    exact h.step hstep
  | toolCalls names => exact h
  | completedInputs names => exact h
  | claimMessage key digest =>
    unfold perform
    dsimp only
    cases hc : s.claimMessage key digest with
    | error e => exact h
    | ok p =>
      have htable : p.2.table = s.table := SessionState.claimMessage_table hc
      dsimp only
      rwa [htable]
  | confirmMessage key itemId =>
    unfold perform
    dsimp only
    cases hc : s.confirmMessage key itemId with
    | error e => exact h
    | ok s' =>
      dsimp only
      rwa [SessionState.confirmMessage_table hc]

theorem wellFormed (h : ReachableWith step anyStep Begun s) : s.WellFormed := by
  refine h.invariant ?_ ?_
  · rintro r (rfl | ⟨value,hr⟩)
    · intro ext s hs
      exact nomatch hs
    · exact fromSnapshot_wellFormed hr
  · rintro r ⟨ext,a⟩ r' hr - hstep
    obtain rfl := Option.some.inj hstep
    dsimp only
    by_cases hvalid : validIdentity ext
    · rw [if_pos hvalid]
      exact hr.update (perform_wellFormed (hr.session ext) a) ext
    · rwa [if_neg hvalid]

/-- What `claim_message` gives its caller. -/
def claimMessage (r : RealtimeRecoveryState) (externalSessionId key digest : String) : Except Exn (Option String) := do
  let ext ← identity externalSessionId
  return (← (r.session ext).claimMessage key digest).1

def beginSession (r : RealtimeRecoveryState) (externalSessionId : String) (minimumGeneration : ℕ) :
    Except Exn (ℕ × RealtimeRecoveryState) := do
  let ext ← identity externalSessionId
  let (generation,s) := (r.session ext).beginSession minimumGeneration
  return (generation,r.update ext s)

theorem snapshot_fidelity (hs : ReachableWith step anyStep Begun s) (hr : fromSnapshot s.snapshot = .ok r) :
    (∀ ext, (r.session ext).table.generation = (s.session ext).table.generation ∧
      (r.session ext).toolCalls = (s.session ext).toolCalls ∧
      (r.session ext).completedInputs = (s.session ext).completedInputs) ∧
    (∀ ext key digest, r.claimMessage ext key digest = s.claimMessage ext key digest) ∧
    r.snapshot = s.snapshot ∧
    ∀ ext minimumGeneration generation s', s.beginSession ext minimumGeneration = .ok (generation,s') →
      ∃ r', r.beginSession ext minimumGeneration = .ok (generation,r') ∧
        ∀ k, (r'.session ext).table.lookup k = (s'.session ext).table.lookup k := by
  have hwf := wellFormed hs
  have halike := session_alike hwf hr
  refine ⟨fun ext => ⟨(halike ext).generation,(halike ext).toolCalls,(halike ext).completedInputs⟩,?_,
    snapshot_again hwf hr,?_⟩
  · intro ext key digest
    unfold claimMessage
    cases hid : identity ext with
    | error e => rfl
    | ok ext' =>
      have hclaim := (halike ext').claimMessage key digest
      rw [except_ok_bind,except_ok_bind]
      cases hs' : (s.session ext').claimMessage key digest <;> cases hr' : (r.session ext').claimMessage key digest <;>
        simp_all [Except.map,bind,Except.bind,pure,Except.pure]
  · intro ext minimumGeneration generation s' hbegin
    obtain ⟨ext',hid,hrest⟩ := except_bind_ok hbegin
    have hsame := identity_eq hid
    subst hsame
    obtain ⟨hgeneration,hlookup⟩ := (halike ext').beginSession minimumGeneration
    have hpair : (((s.session ext').beginSession minimumGeneration).1,
        s.update ext' ((s.session ext').beginSession minimumGeneration).2) = (generation,s') := Except.ok.inj hrest
    obtain ⟨rfl,rfl⟩ := Prod.mk.inj hpair
    refine ⟨r.update ext' ((r.session ext').beginSession minimumGeneration).2,?_,fun k => ?_⟩
    · rw [beginSession,hid,except_ok_bind,← hgeneration]
      rfl
    · simpa using hlookup k

/-- A user item under two names, an assistant item, a tool call and a message whose outcome is unknown. -/
def keptHistory : List (String × SessionAction) :=
  [("session",.beginSession 1), ("session",.register "item_1" .user "committed" true ["item_1a"] none),
    ("session",.register "item_2" .assistant "output_item" false [] none), ("session",.toolCalls {"call_1"})]

def kept : RealtimeRecoveryState := (Transition.exec step {} keptHistory).getD {}

theorem kept_sorted : sortedItems (kept.session "session").table = (kept.session "session").table.items.entries := by
  unfold sortedItems
  apply List.mergeSort_of_pairwise
  decide

theorem kept_fidelity : ∃ r, fromSnapshot kept.snapshot = .ok r ∧ r.snapshot = kept.snapshot := by
  have hexec : Transition.exec step {} keptHistory = some kept := rfl
  have hentries : kept.sessions.entries = [("session",kept.session "session")] := rfl
  have hcalls : (kept.session "session").toolCalls = {"call_1"} := rfl
  have hinputs : (kept.session "session").completedInputs = ∅ := rfl
  have hok : (fromSnapshot kept.snapshot).isOk = true := by
    unfold snapshot
    rw [hentries]
    simp only [List.map,SessionState.snapshot,RealtimeIdentityTable.snapshot,kept_sorted,hcalls,hinputs,
      Finset.sort_singleton,Finset.sort_empty]
    decide
  cases hr : fromSnapshot kept.snapshot with
  | error e => simp [hr,Except.isOk,Except.toBool] at hok
  | ok r =>
    have hreach : ReachableWith step anyStep Begun kept := Transition.exec_reachable step (.inl rfl) hexec
    exact ⟨r,rfl,(snapshot_fidelity hreach hr).2.2.1⟩

end RealtimeRecoveryState
end HarnessSdk
