import Mathlib
import AgenticGovernance.Support.Keyed
import AgenticGovernance.Support.Transition

/-!
# Hot reload of policies

An SDK keeps its policies in memory.  `register` puts a policy there and persists it in the
background, with a best effort.  `_poll_policies` compares the largest `updated_at` of the
table with the one of its last reload, and replaces the policies of each module by the rows
of the table when it is larger.

The time of a row is read when its transaction starts, so rows do not appear in the order of
their times, and a reload knows nothing of policies that have no row.  `Timely` says when an
event of a run does no harm.  In runs of timely events a poll leaves the memory equal to the
table once upserts have stopped, and a registered policy is never dropped.
-/

namespace AgenticGovernance.Policies

open Support

inductive PolicyType where
  | scope
  | budget
  | routing
  deriving DecidableEq

abbrev PolicyKey := PolicyType × String

/-- A row of `governance_policies`. -/
structure PolicyRow (T P : Type) where
  policy : P
  updatedAt : T

/-- An open transaction of `_upsert_policy`.  `own` says that it persists a policy registered
in this SDK. -/
structure Upsert (T P : Type) where
  key : PolicyKey
  policy : P
  updatedAt : T
  own : Bool

/-- Where `_poll_policies` is.  It has read `max` and replaced the policies of the types in
`done`; `fetched` is a type with the rows that `get_stored_policies` has returned for it. -/
inductive PollPhase (T P : Type) where
  | idle
  | running (max : T) (done : List PolicyType)
      (fetched : Option (PolicyType × (String → Option P))) (todo : List PolicyType)

/-- The running poll has read `max`, and has read the rows of the type. -/
def PollPhase.HasRead {T P : Type} (poll : PollPhase T P) (type : PolicyType) (max : T) : Prop :=
  ∃ done fetched todo, poll = .running max done fetched todo ∧
    (type ∈ done ∨ ∃ snapshot, fetched = some (type, snapshot))

/-- The committed table, one SDK, and all transactions and queued persists. -/
structure ReloadState (T P : Type) where
  table : Keyed PolicyKey (PolicyRow T P)
  memory : PolicyKey → Option P
  /-- `_last_policy_updated_at` -/
  watermark : Option T
  now : T
  queued : List (PolicyKey × P)
  inFlight : List (Upsert T P)
  poll : PollPhase T P
  /-- the keys under which this SDK has registered a policy -/
  registered : Set PolicyKey

inductive ReloadEvent (T P : Type) where
  | tick (later : T)
  | register (key : PolicyKey) (policy : P)
  | beginOwn (key : PolicyKey) (policy : P)
  | beginOther (key : PolicyKey) (policy : P)
  | commit (u : Upsert T P)
  | failQueued (key : PolicyKey) (policy : P)
  | failOpen (u : Upsert T P)
  | startPoll
  | fetch (type : PolicyType)
  | replace
  | finish
  | abort

namespace ReloadState

variable {T P : Type}

def stored (s : ReloadState T P) (key : PolicyKey) : Option P :=
  (s.table.get? key).map PolicyRow.policy

/-- Memory and table have the same policy under the key. -/
def InSync (s : ReloadState T P) (key : PolicyKey) : Prop := s.memory key = s.stored key

/-- A registered policy is still being persisted. -/
def Unsettled (s : ReloadState T P) (key : PolicyKey) : Prop :=
  (∃ policy, (key, policy) ∈ s.queued) ∨ ∃ u ∈ s.inFlight, u.own = true ∧ u.key = key

/-- What is there once a transaction has committed; `rest` are the others. -/
def commitUpsert (s : ReloadState T P) (u : Upsert T P) (rest : List (Upsert T P)) :
    ReloadState T P :=
  { s with
    table := s.table.set u.key ⟨u.policy, u.updatedAt⟩
    inFlight := rest }

/-- No upsert is under way, and no poll. -/
structure Quiet (s : ReloadState T P) : Prop where
  queued : s.queued = []
  inFlight : s.inFlight = []
  poll : s.poll = .idle

variable [LinearOrder T]

/-- `SELECT MAX(updated_at) FROM governance_policies` -/
def maxUpdatedAt (s : ReloadState T P) : Option T :=
  (s.table.entries.map fun e => e.2.updatedAt).max?

/-- Later than the last reload. -/
def AboveWatermark (s : ReloadState T P) (t : T) : Prop :=
  ∀ w, s.watermark = some w → w < t

instance (s : ReloadState T P) (t : T) : Decidable (s.AboveWatermark t) :=
  match h : s.watermark with
  | none => isTrue (by rw [AboveWatermark, h]; rintro w ⟨⟩)
  | some w => decidable_of_iff (w < t) (by simp [AboveWatermark, h])

/-- A poll that nothing interrupts, of the modules that the SDK has. -/
def completePoll (types : List PolicyType) (s : ReloadState T P) : ReloadState T P :=
  match s.maxUpdatedAt with
  | none => s
  | some max =>
      if s.AboveWatermark max then
        { s with
          memory := fun key => if key.1 ∈ types then s.stored key else s.memory key
          watermark := some max }
      else s

end ReloadState

section Steps

variable {T P : Type} [LinearOrder T] (types : List PolicyType)

inductive ReloadStep : ReloadEvent T P → ReloadState T P → ReloadState T P → Prop
  | tick (s : ReloadState T P) (later : T) (hlater : s.now ≤ later) :
      ReloadStep (.tick later) s { s with now := later }
  | register (s : ReloadState T P) (key : PolicyKey) (policy : P) :
      ReloadStep (.register key policy) s
        { s with
          memory := Function.update s.memory key (some policy)
          queued := s.queued ++ [(key, policy)]
          registered := insert key s.registered }
  | beginOwn (s : ReloadState T P) (key : PolicyKey) (policy : P)
      (before after : List (PolicyKey × P))
      (hqueued : s.queued = before ++ (key, policy) :: after) :
      ReloadStep (.beginOwn key policy) s
        { s with
          queued := before ++ after
          inFlight := s.inFlight ++ [⟨key, policy, s.now, true⟩] }
  | beginOther (s : ReloadState T P) (key : PolicyKey) (policy : P) :
      ReloadStep (.beginOther key policy) s
        { s with inFlight := s.inFlight ++ [⟨key, policy, s.now, false⟩] }
  | commit (s : ReloadState T P) (u : Upsert T P) (before after : List (Upsert T P))
      (hopen : s.inFlight = before ++ u :: after) :
      ReloadStep (.commit u) s
        (s.commitUpsert u (before ++ after))
  | failQueued (s : ReloadState T P) (key : PolicyKey) (policy : P)
      (before after : List (PolicyKey × P))
      (hqueued : s.queued = before ++ (key, policy) :: after) :
      ReloadStep (.failQueued key policy) s { s with queued := before ++ after }
  | failOpen (s : ReloadState T P) (u : Upsert T P) (before after : List (Upsert T P))
      (hopen : s.inFlight = before ++ u :: after) :
      ReloadStep (.failOpen u) s { s with inFlight := before ++ after }
  | startPoll (s : ReloadState T P) (max : T) (hpoll : s.poll = .idle)
      (hmax : s.maxUpdatedAt = some max) (hnew : s.AboveWatermark max) :
      ReloadStep .startPoll s { s with poll := .running max [] none types }
  | fetch (s : ReloadState T P) (max : T) (done : List PolicyType) (type : PolicyType)
      (todo : List PolicyType) (hpoll : s.poll = .running max done none (type :: todo)) :
      ReloadStep (.fetch type) s
        { s with
          poll := .running max done (some (type, fun agent => s.stored (type, agent))) todo }
  | replace (s : ReloadState T P) (max : T) (done : List PolicyType) (type : PolicyType)
      (snapshot : String → Option P) (todo : List PolicyType)
      (hpoll : s.poll = .running max done (some (type, snapshot)) todo) :
      ReloadStep .replace s
        { s with
          memory := fun key => if key.1 = type then snapshot key.2 else s.memory key
          poll := .running max (done ++ [type]) none todo }
  | finish (s : ReloadState T P) (max : T) (done : List PolicyType)
      (hpoll : s.poll = .running max done none []) :
      ReloadStep .finish s { s with watermark := some max, poll := .idle }
  | abort (s : ReloadState T P) : ReloadStep .abort s { s with poll := .idle }

/-- The event does no harm.

A commit is noticed: its time is above the watermark, and above the maximum of a poll that has
already fetched the rows of the type.  A persist fails only if the table has what memory has.
No rows are fetched while the first policy of an agent is being persisted, and no first policy
of an agent is registered between a fetch and the replacement that it is for. -/
def ReloadState.Timely (s : ReloadState T P) : ReloadEvent T P → Prop
  | .commit u => s.AboveWatermark u.updatedAt ∧
      ∀ max, s.poll.HasRead u.key.1 max → max < u.updatedAt
  | .failQueued key _ => s.InSync key
  | .failOpen u => u.own = true → s.InSync u.key
  | .fetch type => type ≠ .routing →
      ∀ agent, s.Unsettled (type, agent) → s.stored (type, agent) ≠ none
  | .register key _ => key.1 ≠ .routing → ∀ max done snapshot todo,
      s.poll = .running max done (some (key.1, snapshot)) todo → snapshot key.2 ≠ none
  | _ => True

/-- An SDK starts with no policies, on any table. -/
def ReloadState.Initial (s : ReloadState T P) : Prop :=
  (∀ key, s.memory key = none) ∧ s.watermark = none ∧ s.queued = [] ∧
    (∀ u ∈ s.inFlight, u.own = false) ∧ s.poll = .idle ∧ s.registered = ∅

def reloadSystem : System (ReloadState T P) where
  init := ReloadState.Initial
  step s t := ∃ e, ReloadStep types e s t

/-- The runs whose events are all timely. -/
def timelySystem : System (ReloadState T P) where
  init := ReloadState.Initial
  step s t := ∃ e, ReloadStep types e s t ∧ s.Timely e

end Steps

/-! ## Keys that nothing is lost for -/

section Covered

variable {T P : Type} {s t : ReloadState T P} {key : PolicyKey} {u : Upsert T P}
  {before after : List (Upsert T P)}

/-- Some row of the type has a time with the property. -/
def ReloadState.HasRow (s : ReloadState T P) (type : PolicyType) (Q : T → Prop) : Prop :=
  ∃ agent row, s.table.get? (type, agent) = some row ∧ Q row.updatedAt

/-- Memory has the row of the key, or its persist or a later poll will see to it. -/
def ReloadState.Covered (s : ReloadState T P) (Q : T → Prop) (key : PolicyKey) : Prop :=
  s.Unsettled key ∨ s.InSync key ∨ s.HasRow key.1 Q

theorem ReloadState.HasRow.imp {type : PolicyType} {Q R : T → Prop} (h : s.HasRow type Q)
    (himp : ∀ ts, Q ts → R ts) : s.HasRow type R := by
  obtain ⟨agent, row, hrow, hts⟩ := h
  exact ⟨agent, row, hrow, himp _ hts⟩

theorem ReloadState.Covered.imp {Q R : T → Prop} (h : s.Covered Q key)
    (himp : ∀ ts, Q ts → R ts) : s.Covered R key := by
  rcases h with hunsettled | hsync | hrow
  · exact Or.inl hunsettled
  · exact Or.inr (Or.inl hsync)
  · exact Or.inr (Or.inr (hrow.imp himp))

/-- A step that leaves the table and the memory of a key, and loses no persist that still
matters. -/
theorem ReloadState.Covered.frame {Q : T → Prop} (h : s.Covered Q key)
    (htable : t.table = s.table) (hmemory : t.memory key = s.memory key)
    (hunsettled : s.Unsettled key → t.Unsettled key ∨ s.InSync key) : t.Covered Q key := by
  have hkept : s.InSync key → t.InSync key := by
    intro hsync
    rw [InSync, stored, hmemory, htable]
    exact hsync
  rcases h with hpersist | hsync | ⟨agent, row, hrow, hts⟩
  · rcases hunsettled hpersist with hpersist | hsync
    · exact Or.inl hpersist
    · exact Or.inr (Or.inl (hkept hsync))
  · exact Or.inr (Or.inl (hkept hsync))
  · exact Or.inr (Or.inr ⟨agent, row, by rw [htable]; exact hrow, hts⟩)

theorem stored_commit_of_ne (hkey : key ≠ u.key) :
    (s.commitUpsert u (before ++ after)).stored key = s.stored key := by
  rw [ReloadState.stored, ReloadState.stored, ReloadState.commitUpsert,
    Keyed.get?_set_of_ne hkey]

theorem unsettled_commit_of_ne (hopen : s.inFlight = before ++ u :: after) (hkey : key ≠ u.key)
    (h : s.Unsettled key) :
    (s.commitUpsert u (before ++ after)).Unsettled key := by
  rcases h with hqueued | ⟨v, hv, hown, hvkey⟩
  · exact Or.inl hqueued
  · refine Or.inr ⟨v, ?_, hown, hvkey⟩
    rw [hopen, List.mem_append, List.mem_cons] at hv
    rcases hv with hv | rfl | hv
    · exact List.mem_append_left _ hv
    · exact absurd hvkey.symm hkey
    · exact List.mem_append_right _ hv

/-- A noticed commit covers the keys of its type, and concerns no others. -/
theorem ReloadState.Covered.commit {Q : T → Prop} (h : s.Covered Q key)
    (hopen : s.inFlight = before ++ u :: after) (hQ : key.1 = u.key.1 → Q u.updatedAt) :
    (s.commitUpsert u (before ++ after)).Covered Q key := by
  by_cases htype : key.1 = u.key.1
  · refine Or.inr (Or.inr ⟨u.key.2, ⟨u.policy, u.updatedAt⟩, ?_, hQ htype⟩)
    rw [htype]
    exact Keyed.get?_set_self
  · have hkey : ∀ agent, (key.1, agent) ≠ u.key := fun agent heq =>
      htype (Prod.ext_iff.mp heq).1
    rcases h with hpersist | hsync | ⟨agent, row, hrow, hts⟩
    · exact Or.inl (unsettled_commit_of_ne hopen (hkey key.2) hpersist)
    · refine Or.inr (Or.inl ?_)
      rw [InSync, stored_commit_of_ne (hkey key.2)]
      exact hsync
    · refine Or.inr (Or.inr ⟨agent, row, ?_, hts⟩)
      rw [← hrow]
      exact Keyed.get?_set_of_ne (hkey agent)

end Covered

/-! ## What timely events keep -/

section Timely

variable {T P : Type} [LinearOrder T] {types : List PolicyType} {s t : ReloadState T P}
  {key : PolicyKey}

/-- What holds while a poll runs. -/
structure RunningOk (types : List PolicyType) (s : ReloadState T P) (max : T)
    (done : List PolicyType) (fetched : Option (PolicyType × (String → Option P)))
    (todo : List PolicyType) : Prop where
  newer : s.AboveWatermark max
  all : ∀ type ∈ types,
    type ∈ done ∨ (∃ snapshot, fetched = some (type, snapshot)) ∨ type ∈ todo
  replaced : ∀ key, key.1 ∈ done → s.Covered (max < ·) key
  current : ∀ type snapshot, fetched = some (type, snapshot) →
    ∀ agent, snapshot agent = s.stored (type, agent) ∨ s.HasRow type (max < ·)
  complete : ∀ type snapshot, fetched = some (type, snapshot) → type ≠ .routing →
    ∀ agent, (type, agent) ∈ s.registered → snapshot agent ≠ none

structure ReloadOk (types : List PolicyType) (s : ReloadState T P) : Prop where
  covered : ∀ key, key.1 ∈ types → s.Covered s.AboveWatermark key
  running : ∀ max done fetched todo, s.poll = .running max done fetched todo →
    RunningOk types s max done fetched todo
  persisted : ∀ key ∈ s.registered, key.1 ≠ .routing → s.Unsettled key ∨ s.stored key ≠ none
  kept : ∀ key ∈ s.registered, key.1 ≠ .routing → s.memory key ≠ none

/-- What is later than a poll in progress is later than the one before it. -/
theorem ReloadState.AboveWatermark.trans {max ts : T} (h : s.AboveWatermark max)
    (hlt : max < ts) : s.AboveWatermark ts :=
  fun w hw => (h w hw).trans hlt

/-- A step after which only persists differ. -/
theorem ReloadOk.frame (h : ReloadOk types s) (htable : t.table = s.table)
    (hmemory : t.memory = s.memory) (hwatermark : t.watermark = s.watermark)
    (hpoll : t.poll = s.poll) (hregistered : t.registered = s.registered)
    (hunsettled : ∀ key, s.Unsettled key → t.Unsettled key ∨ s.InSync key) :
    ReloadOk types t := by
  have hcovered : ∀ Q key, s.Covered Q key → t.Covered Q key := fun Q key hkey =>
    hkey.frame htable (by rw [hmemory]) (hunsettled key)
  have habove : ∀ ts, s.AboveWatermark ts → t.AboveWatermark ts := by
    intro ts hts
    rw [ReloadState.AboveWatermark, hwatermark]
    exact hts
  refine ⟨fun key hkey => (hcovered _ key (h.covered key hkey)).imp habove, ?_, ?_, ?_⟩
  · intro max done fetched todo hrunning
    rw [hpoll] at hrunning
    have hok := h.running max done fetched todo hrunning
    refine ⟨habove max hok.newer, hok.all, fun key hkey => hcovered _ key (hok.replaced key hkey),
      ?_, ?_⟩
    · intro type snapshot hfetched agent
      rw [ReloadState.stored, ReloadState.HasRow, htable]
      exact hok.current type snapshot hfetched agent
    · rw [hregistered]
      exact hok.complete
  · intro key hkey hrouting
    rw [hregistered] at hkey
    rw [ReloadState.stored, htable]
    rcases h.persisted key hkey hrouting with hpersist | hstored
    · rcases hunsettled key hpersist with hpersist | hsync
      · exact Or.inl hpersist
      · right
        have hmem := h.kept key hkey hrouting
        rwa [hsync] at hmem
    · exact Or.inr hstored
  · rw [hregistered, hmemory]
    exact h.kept

theorem ReloadOk.commit {u : Upsert T P} {before after : List (Upsert T P)}
    (h : ReloadOk types s) (hopen : s.inFlight = before ++ u :: after)
    (habove : s.AboveWatermark u.updatedAt)
    (hread : ∀ max, s.poll.HasRead u.key.1 max → max < u.updatedAt) :
    ReloadOk types (s.commitUpsert u (before ++ after)) := by
  refine ⟨fun key hkey => (h.covered key hkey).commit hopen fun _ => habove, ?_, ?_, h.kept⟩
  · intro max done fetched todo hrunning
    have hpoll : s.poll = .running max done fetched todo := hrunning
    have hok := h.running max done fetched todo hpoll
    refine ⟨hok.newer, hok.all, ?_, ?_, hok.complete⟩
    · intro key hkey
      refine (hok.replaced key hkey).commit hopen fun htype => hread max ?_
      exact ⟨done, fetched, todo, hpoll, Or.inl (htype ▸ hkey)⟩
    · intro type snapshot hfetched agent
      by_cases htype : type = u.key.1
      · right
        refine ⟨u.key.2, ⟨u.policy, u.updatedAt⟩, ?_, ?_⟩
        · rw [htype]
          exact Keyed.get?_set_self
        · exact hread max ⟨done, fetched, todo, hpoll, Or.inr ⟨snapshot, htype ▸ hfetched⟩⟩
      · have hkey : ∀ a, (type, a) ≠ u.key := fun a heq => htype (Prod.ext_iff.mp heq).1
        rcases hok.current type snapshot hfetched agent with hsame | ⟨a, row, hrow, hts⟩
        · left
          rw [stored_commit_of_ne (hkey agent)]
          exact hsame
        · refine Or.inr ⟨a, row, ?_, hts⟩
          rw [← hrow]
          exact Keyed.get?_set_of_ne (hkey a)
  · intro key hkey hrouting
    by_cases heq : key = u.key
    · right
      rw [heq, ReloadState.stored, ReloadState.commitUpsert, Keyed.get?_set_self]
      rintro ⟨⟩
    · rcases h.persisted key hkey hrouting with hpersist | hstored
      · exact Or.inl (unsettled_commit_of_ne hopen heq hpersist)
      · right
        rw [stored_commit_of_ne heq]
        exact hstored

theorem ReloadOk.register (h : ReloadOk types s) {policy : P}
    (hsnapshot : key.1 ≠ .routing → ∀ max done snapshot todo,
      s.poll = .running max done (some (key.1, snapshot)) todo → snapshot key.2 ≠ none) :
    ReloadOk types
      { s with
        memory := Function.update s.memory key (some policy)
        queued := s.queued ++ [(key, policy)]
        registered := insert key s.registered } := by
  have hpersist : ∀ k, k = key ∨ s.Unsettled k →
      ({ s with
          memory := Function.update s.memory key (some policy)
          queued := s.queued ++ [(key, policy)]
          registered := insert key s.registered } : ReloadState T P).Unsettled k := by
    rintro k (rfl | ⟨q, hq⟩ | hopen)
    · exact Or.inl ⟨policy, by simp⟩
    · exact Or.inl ⟨q, List.mem_append_left _ hq⟩
    · exact Or.inr hopen
  have hcovered : ∀ Q k, s.Covered Q k →
      ({ s with
          memory := Function.update s.memory key (some policy)
          queued := s.queued ++ [(key, policy)]
          registered := insert key s.registered } : ReloadState T P).Covered Q k := by
    intro Q k hk
    by_cases hkey : k = key
    · exact Or.inl (hpersist k (Or.inl hkey))
    · exact hk.frame rfl (Function.update_of_ne hkey ..)
        fun hunsettled => Or.inl (hpersist k (Or.inr hunsettled))
  refine ⟨fun k hk => hcovered _ k (h.covered k hk), ?_, ?_, ?_⟩
  · intro max done fetched todo hrunning
    have hpoll : s.poll = .running max done fetched todo := hrunning
    have hok := h.running max done fetched todo hpoll
    refine ⟨hok.newer, hok.all, fun k hk => hcovered _ k (hok.replaced k hk), hok.current, ?_⟩
    rintro type snapshot rfl hrouting agent (hnew | hold)
    · obtain ⟨rfl, rfl⟩ := Prod.mk.inj hnew
      exact hsnapshot hrouting max done snapshot todo hpoll
    · exact hok.complete type snapshot rfl hrouting agent hold
  · rintro k (rfl | hk) hrouting
    · exact Or.inl (hpersist k (Or.inl rfl))
    · rcases h.persisted k hk hrouting with hunsettled | hstored
      · exact Or.inl (hpersist k (Or.inr hunsettled))
      · exact Or.inr hstored
  · intro k hk hrouting
    by_cases hkey : k = key
    · subst hkey
      change Function.update s.memory k (some policy) k ≠ none
      rw [Function.update_self]
      rintro ⟨⟩
    · change Function.update s.memory key (some policy) k ≠ none
      rw [Function.update_of_ne hkey]
      exact h.kept k (Set.mem_of_mem_insert_of_ne hk hkey) hrouting

/-- The policies of a type are replaced by its rows. -/
theorem ReloadOk.replace (h : ReloadOk types s) {max : T} {done todo : List PolicyType}
    {type : PolicyType} {snapshot : String → Option P}
    (hpoll : s.poll = .running max done (some (type, snapshot)) todo) :
    ReloadOk types
      { s with
        memory := fun key => if key.1 = type then snapshot key.2 else s.memory key
        poll := .running max (done ++ [type]) none todo } := by
  have hok := h.running max done (some (type, snapshot)) todo hpoll
  have hreplaced : ∀ key : PolicyKey, key.1 = type →
      ({ s with
          memory := fun key => if key.1 = type then snapshot key.2 else s.memory key
          poll := .running max (done ++ [type]) none todo } : ReloadState T P).Covered
            (max < ·) key := by
    intro key htype
    subst htype
    rcases hok.current key.1 snapshot rfl key.2 with hsame | hrow
    · exact Or.inr (Or.inl ((if_pos rfl).trans hsame))
    · exact Or.inr (Or.inr hrow)
  have hother : ∀ Q (key : PolicyKey), key.1 ≠ type → s.Covered Q key →
      ({ s with
          memory := fun key => if key.1 = type then snapshot key.2 else s.memory key
          poll := .running max (done ++ [type]) none todo } : ReloadState T P).Covered Q key :=
    fun Q key htype hkey => hkey.frame rfl (if_neg htype) Or.inl
  refine ⟨?_, ?_, h.persisted, ?_⟩
  · intro key hkey
    by_cases htype : key.1 = type
    · exact (hreplaced key htype).imp fun ts hts => hok.newer.trans hts
    · exact hother _ key htype (h.covered key hkey)
  · rintro _ _ _ _ ⟨⟩
    refine ⟨hok.newer, ?_, ?_, by rintro _ _ ⟨⟩, by rintro _ _ ⟨⟩⟩
    · intro type' htype'
      rcases hok.all type' htype' with hdone | ⟨_, hcurrent⟩ | htodo
      · exact Or.inl (List.mem_append_left _ hdone)
      · obtain ⟨rfl, -⟩ := Prod.mk.inj (Option.some.inj hcurrent)
        exact Or.inl (List.mem_append_right _ (List.mem_singleton_self _))
      · exact Or.inr (Or.inr htodo)
    · intro key hkey
      by_cases htype : key.1 = type
      · exact hreplaced key htype
      · rw [List.mem_append, List.mem_singleton] at hkey
        exact hother _ key htype (hok.replaced key (hkey.resolve_right htype))
  · rintro ⟨type', agent⟩ hkey hrouting
    by_cases htype : type' = type
    · subst htype
      change (if type' = type' then snapshot agent else s.memory (type', agent)) ≠ none
      rw [if_pos rfl]
      exact hok.complete type' snapshot rfl hrouting agent hkey
    · change (if type' = type then snapshot agent else s.memory (type', agent)) ≠ none
      rw [if_neg htype]
      exact h.kept (type', agent) hkey hrouting

theorem ReloadOk.finish (h : ReloadOk types s) {max : T} {done : List PolicyType}
    (hpoll : s.poll = .running max done none []) :
    ReloadOk types { s with watermark := some max, poll := .idle } := by
  have hok := h.running max done none [] hpoll
  refine ⟨?_, by rintro _ _ _ _ ⟨⟩, h.persisted, h.kept⟩
  intro key hkey
  have hdone : key.1 ∈ done := by
    rcases hok.all key.1 hkey with hdone | ⟨_, ⟨⟩⟩ | htodo
    · exact hdone
    · cases htodo
  refine ((hok.replaced key hdone).frame rfl rfl Or.inl).imp fun ts hts => ?_
  rintro w ⟨⟩
  exact hts

theorem ReloadOk.step {e : ReloadEvent T P} (h : ReloadOk types s)
    (hstep : ReloadStep types e s t) (htimely : s.Timely e) : ReloadOk types t := by
  cases hstep with
  | tick s later hlater => exact h.frame rfl rfl rfl rfl rfl fun key => Or.inl
  | register s key policy => exact h.register htimely
  | beginOwn s key policy before after hqueued =>
      refine h.frame rfl rfl rfl rfl rfl ?_
      rintro k (⟨q, hq⟩ | ⟨u, hu, hown⟩)
      · rw [hqueued, List.mem_append, List.mem_cons] at hq
        rcases hq with hq | hq | hq
        · exact Or.inl (Or.inl ⟨q, List.mem_append_left _ hq⟩)
        · obtain ⟨rfl, rfl⟩ := Prod.mk.inj hq
          exact Or.inl (Or.inr ⟨_, List.mem_append_right _ (List.mem_singleton_self _), rfl, rfl⟩)
        · exact Or.inl (Or.inl ⟨q, List.mem_append_right _ hq⟩)
      · exact Or.inl (Or.inr ⟨u, List.mem_append_left _ hu, hown⟩)
  | beginOther s key policy =>
      refine h.frame rfl rfl rfl rfl rfl ?_
      rintro k (hqueued | ⟨u, hu, hown⟩)
      · exact Or.inl (Or.inl hqueued)
      · exact Or.inl (Or.inr ⟨u, List.mem_append_left _ hu, hown⟩)
  | commit s u before after hopen => exact h.commit hopen htimely.1 htimely.2
  | failQueued s key policy before after hqueued =>
      refine h.frame rfl rfl rfl rfl rfl ?_
      rintro k (⟨q, hq⟩ | hopen)
      · rw [hqueued, List.mem_append, List.mem_cons] at hq
        rcases hq with hq | hq | hq
        · exact Or.inl (Or.inl ⟨q, List.mem_append_left _ hq⟩)
        · obtain ⟨rfl, rfl⟩ := Prod.mk.inj hq
          exact Or.inr htimely
        · exact Or.inl (Or.inl ⟨q, List.mem_append_right _ hq⟩)
      · exact Or.inl (Or.inr hopen)
  | failOpen s u before after hopen =>
      refine h.frame rfl rfl rfl rfl rfl ?_
      rintro k (hqueued | ⟨v, hv, hown, rfl⟩)
      · exact Or.inl (Or.inl hqueued)
      · rw [hopen, List.mem_append, List.mem_cons] at hv
        rcases hv with hv | rfl | hv
        · exact Or.inl (Or.inr ⟨v, List.mem_append_left _ hv, hown, rfl⟩)
        · exact Or.inr (htimely hown)
        · exact Or.inl (Or.inr ⟨v, List.mem_append_right _ hv, hown, rfl⟩)
  | startPoll s max hpoll hmax hnew =>
      refine ⟨h.covered, ?_, h.persisted, h.kept⟩
      rintro _ _ _ _ ⟨⟩
      exact ⟨hnew, fun type htype => Or.inr (Or.inr htype), by rintro _ ⟨⟩, by rintro _ _ ⟨⟩,
        by rintro _ _ ⟨⟩⟩
  | fetch s max done type todo hpoll =>
      have hok := h.running max done none (type :: todo) hpoll
      refine ⟨h.covered, ?_, h.persisted, h.kept⟩
      rintro _ _ _ _ ⟨⟩
      refine ⟨hok.newer, ?_, hok.replaced, ?_, ?_⟩
      · intro type' htype'
        rcases hok.all type' htype' with hdone | ⟨_, ⟨⟩⟩ | htodo
        · exact Or.inl hdone
        · rcases List.mem_cons.mp htodo with rfl | htodo
          · exact Or.inr (Or.inl ⟨_, rfl⟩)
          · exact Or.inr (Or.inr htodo)
      · rintro _ _ ⟨⟩ agent
        exact Or.inl rfl
      · rintro _ _ ⟨⟩ hrouting agent hregistered
        rcases h.persisted _ hregistered hrouting with hunsettled | hstored
        · exact htimely hrouting agent hunsettled
        · exact hstored
  | replace s max done type snapshot todo hpoll => exact h.replace hpoll
  | finish s max done hpoll => exact h.finish hpoll
  | abort s => exact ⟨h.covered, by rintro _ _ _ _ ⟨⟩, h.persisted, h.kept⟩

theorem reloadOk_of_initial (h : s.Initial) : ReloadOk types s := by
  obtain ⟨hmemory, hwatermark, -, -, hpoll, hregistered⟩ := h
  refine ⟨?_, ?_, ?_, ?_⟩
  · intro key _
    rcases hrow : s.table.get? key with _ | row
    · refine Or.inr (Or.inl ?_)
      rw [ReloadState.InSync, ReloadState.stored, hmemory, hrow]
      rfl
    · refine Or.inr (Or.inr ⟨key.2, row, hrow, ?_⟩)
      rw [ReloadState.AboveWatermark, hwatermark]
      rintro w ⟨⟩
  · intro max done fetched todo hrunning
    rw [hpoll] at hrunning
    cases hrunning
  · intro key hkey
    rw [hregistered] at hkey
    cases hkey
  · intro key hkey
    rw [hregistered] at hkey
    cases hkey

theorem reloadOk_of_reachable (h : (timelySystem types).Reachable s) : ReloadOk types s := by
  refine System.invariant ?_ ?_ h
  · intro s hinit
    exact reloadOk_of_initial hinit
  · rintro s t - hs ⟨e, hstep, htimely⟩
    exact hs.step hstep htimely

end Timely

/-! ## A poll after the last upsert -/

section Poll

variable {T P : Type} [LinearOrder T] {types : List PolicyType} {s : ReloadState T P}

theorem le_maxUpdatedAt {max : T} (hmax : s.maxUpdatedAt = some max) {key : PolicyKey}
    {row : PolicyRow T P} (hrow : s.table.get? key = some row) : row.updatedAt ≤ max := by
  have hmem : row.updatedAt ∈ s.table.entries.map fun e => e.2.updatedAt :=
    List.mem_map_of_mem (Keyed.mem_entries_iff.mpr hrow)
  exact (List.max?_eq_some_iff.mp hmax).2 _ hmem

theorem maxUpdatedAt_ne_none {key : PolicyKey} {row : PolicyRow T P}
    (hrow : s.table.get? key = some row) : s.maxUpdatedAt ≠ none := by
  rw [ReloadState.maxUpdatedAt, ne_eq, List.max?_eq_none_iff, List.map_eq_nil_iff]
  exact List.ne_nil_of_mem (Keyed.mem_entries_iff.mpr hrow)

/-- What is covered when nothing is under way is in memory after a poll. -/
theorem completePoll_inSync (hs : ReloadOk types s) (hquiet : s.Quiet) {key : PolicyKey}
    (hkey : key.1 ∈ types) : (s.completePoll types).InSync key := by
  have hold : (∀ agent row, s.table.get? (key.1, agent) = some row →
      ¬ s.AboveWatermark row.updatedAt) → s.InSync key := by
    intro hseen
    rcases hs.covered key hkey with hunsettled | hsync | ⟨agent, row, hrow, habove⟩
    · rcases hunsettled with ⟨policy, hqueued⟩ | ⟨u, hu, -⟩
      · rw [hquiet.queued] at hqueued
        cases hqueued
      · rw [hquiet.inFlight] at hu
        cases hu
    · exact hsync
    · exact absurd habove (hseen agent row hrow)
  rw [ReloadState.completePoll]
  split
  · rename_i hnone
    exact hold fun agent row hrow => absurd hnone (maxUpdatedAt_ne_none hrow)
  · rename_i max hmax
    by_cases hnew : s.AboveWatermark max
    · rw [if_pos hnew]
      exact if_pos hkey
    · rw [if_neg hnew]
      refine hold fun agent row hrow habove => hnew fun w hw => ?_
      exact (habove w hw).trans_le (le_maxUpdatedAt hmax hrow)

/-- The types still to do are replaced one after the other. -/
theorem poll_todo_run (max : T) (todo done : List PolicyType) (memory : PolicyKey → Option P) :
    Relation.ReflTransGen (fun s t => ∃ e, ReloadStep types e s t)
      { s with memory := memory, poll := .running max done none todo }
      { s with
        memory := fun key => if key.1 ∈ todo then s.stored key else memory key
        poll := .running max (done ++ todo) none [] } := by
  induction todo generalizing done memory with
  | nil =>
      rw [List.append_nil]
      exact .refl
  | cons type todo ih =>
      have hmemory : (fun key : PolicyKey => if key.1 ∈ type :: todo then s.stored key
          else memory key) = fun key => if key.1 ∈ todo then s.stored key
            else if key.1 = type then s.stored (type, key.2) else memory key := by
        funext key
        by_cases htype : key.1 = type
        · subst htype
          simp
        · simp [htype]
      have hdone : done ++ type :: todo = (done ++ [type]) ++ todo := by simp
      rw [hmemory, hdone]
      refine .head ⟨_, .fetch _ max done type todo rfl⟩ ?_
      exact .head ⟨_, .replace _ max done type _ todo rfl⟩ (ih (done ++ [type]) _)

/-- The poll is made of steps. -/
theorem completePoll_run (hidle : s.poll = .idle) :
    Relation.ReflTransGen (fun s t => ∃ e, ReloadStep types e s t) s (s.completePoll types) := by
  rw [ReloadState.completePoll]
  split
  · exact .refl
  · rename_i max hmax
    by_cases hnew : s.AboveWatermark max
    · rw [if_pos hnew]
      refine .head ⟨_, .startPoll s max hidle hmax hnew⟩ ?_
      have hend : ({ s with
          memory := fun key => if key.1 ∈ types then s.stored key else s.memory key
          watermark := some max } : ReloadState T P) =
          { s with
            memory := fun key => if key.1 ∈ types then s.stored key else s.memory key
            watermark := some max
            poll := .idle } := by
        rw [← hidle]
      rw [hend]
      exact (poll_todo_run max types [] s.memory).tail ⟨.finish, .finish _ max _ rfl⟩
    · rw [if_neg hnew]

/-- In every run of timely events, a poll that runs when no upsert is under way leaves the
memory of each polled module equal to the table, and no scope or budget policy that was
registered is ever missing from memory. -/
theorem hot_reload_keeps_policies (h : (timelySystem types).Reachable s) :
    (s.Quiet → ∀ key : PolicyKey, key.1 ∈ types →
      (s.completePoll types).memory key = (s.completePoll types).stored key) ∧
      ∀ key ∈ s.registered, key.1 ≠ .routing → s.memory key ≠ none := by
  have hs := reloadOk_of_reachable h
  exact ⟨fun hquiet key hkey => completePoll_inSync hs hquiet hkey, hs.kept⟩

end Poll

/-! ## Runs -/

/-- An SDK on an empty table. -/
def freshSdk : ReloadState ℕ String where
  table := .empty
  memory _ := none
  watermark := none
  now := 0
  queued := []
  inFlight := []
  poll := .idle
  registered := ∅

theorem freshSdk_initial : freshSdk.Initial :=
  ⟨fun _ => rfl, rfl, rfl, by rintro u ⟨⟩, rfl, rfl⟩

def billingKey : PolicyKey := (.budget, "billing")

/-- A budget that is persisted before the first poll. -/
theorem persisted_budget_kept :
    ∃ s : ReloadState ℕ String, (timelySystem [.scope, .budget]).Reachable s ∧ s.Quiet ∧
      (s.completePoll [.scope, .budget]).memory billingKey =
        (s.completePoll [.scope, .budget]).stored billingKey ∧
      s.memory billingKey ≠ none := by
  have hstart := System.Reachable.start (M := timelySystem [.scope, .budget]) freshSdk_initial
  have hregistered := hstart.next ⟨_, .register _ billingKey "cap", by rintro - _ _ _ _ ⟨⟩⟩
  have hbegun := hregistered.next ⟨_, .beginOwn _ billingKey "cap" [] [] rfl, trivial⟩
  have hcommitted := hbegun.next ⟨_, .commit _ ⟨billingKey, "cap", 0, true⟩ [] [] rfl,
    by rintro w ⟨⟩, by rintro max ⟨_, _, _, ⟨⟩, -⟩⟩
  obtain ⟨hsync, hkept⟩ := hot_reload_keeps_policies hcommitted
  exact ⟨_, hcommitted, ⟨rfl, rfl, rfl⟩, hsync ⟨rfl, rfl, rfl⟩ billingKey (by decide),
    hkept billingKey (Set.mem_insert ..) (by decide)⟩

theorem reachable_completePoll {s : ReloadState ℕ String} {types : List PolicyType}
    (h : (reloadSystem types).Reachable s) (hidle : s.poll = .idle) :
    (reloadSystem types).Reachable (s.completePoll types) := by
  obtain ⟨s₀, hinit, hrun⟩ := h
  exact ⟨s₀, hinit, hrun.trans (completePoll_run hidle)⟩

/-- A budget whose persist has failed is gone after the next reload, and a row that is
committed after a row with a later time is not loaded by any later poll. -/
theorem hot_reload_loses_policies :
    (∃ s : ReloadState ℕ String, (reloadSystem [.scope, .budget]).Reachable s ∧
      billingKey ∈ s.registered ∧ s.memory billingKey = none) ∧
    ∃ s : ReloadState ℕ String, (reloadSystem [.scope, .budget]).Reachable s ∧ s.Quiet ∧
      (s.completePoll [.scope, .budget]).memory billingKey ≠
        (s.completePoll [.scope, .budget]).stored billingKey := by
  have hstart := System.Reachable.start (M := reloadSystem [.scope, .budget]) freshSdk_initial
  constructor
  · have hregistered := hstart.next ⟨_, .register _ billingKey "cap"⟩
    have hfailed := hregistered.next ⟨_, .failQueued _ billingKey "cap" [] [] rfl⟩
    have hbegun := hfailed.next ⟨_, .beginOther _ (.scope, "helper") "tools"⟩
    have hcommitted := hbegun.next
      ⟨_, .commit _ ⟨(.scope, "helper"), "tools", 0, false⟩ [] [] rfl⟩
    have hpolled := reachable_completePoll hcommitted rfl
    exact ⟨_, hpolled, Set.mem_insert .., rfl⟩
  · have hslow := hstart.next ⟨_, .beginOther _ billingKey "cap"⟩
    have hlater := hslow.next ⟨_, .tick _ 1 (Nat.zero_le 1)⟩
    have hfast := hlater.next ⟨_, .beginOther _ (.scope, "helper") "tools"⟩
    have hcommitted := hfast.next ⟨_, .commit _ ⟨(.scope, "helper"), "tools", 1, false⟩
      [⟨billingKey, "cap", 0, false⟩] [] rfl⟩
    have hpolled := reachable_completePoll hcommitted rfl
    have hlate := hpolled.next ⟨_, .commit _ ⟨billingKey, "cap", 0, false⟩ [] [] rfl⟩
    refine ⟨_, hlate, ⟨rfl, rfl, rfl⟩, ?_⟩
    decide

end AgenticGovernance.Policies
