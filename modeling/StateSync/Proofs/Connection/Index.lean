import StateSync.Proofs.Connection.Table

/-! The index of a connection table by transport and peer, while connections are entered and removed in any order. Ids
    count up and the removed ones stay dead, and whatever is found is live. That all that is live is found and counted
    holds exactly as long as no connection is entered for a peer that has one (`run_indexed`). -/

namespace StateSync

namespace Assoc
variable {κ α : Type} [DecidableEq κ] {k : κ} {x : α}

theorem length_put (k : κ) (x : α) : ∀ es : List (κ × α),
    (put k x es).length = if (lookup k es).isSome then es.length else es.length + 1
  | [] => rfl
  | e :: es => by
    by_cases he : e.1 = k
    · simp [put, lookup, he]
    · rw [put, if_neg he, lookup, if_neg he, List.length_cons, length_put k x es, List.length_cons]
      split <;> rfl

theorem size_insert (m : Assoc κ α) (k : κ) (x : α) :
    (m.insert k x).size = if m.contains k then m.size else m.size + 1 := length_put k x m.entries

theorem length_filter_ne : ∀ {es : List (κ × α)}, (es.map (·.1)).Nodup → (lookup k es).isSome = true →
    (es.filter fun e => e.1 ≠ k).length + 1 = es.length
  | [], _, h => by cases h
  | e :: es, hnodup, h => by
    obtain ⟨hnew, hnodup⟩ := List.nodup_cons.mp hnodup
    by_cases he : e.1 = k
    · have hkeep : (es.filter fun e => e.1 ≠ k) = es := by
        refine List.filter_eq_self.mpr fun e' he' => decide_eq_true fun heq => hnew ?_
        exact List.mem_map.mpr ⟨e', he', heq.trans he.symm⟩
      rw [List.filter_cons_of_neg (by simp [he]), hkeep, List.length_cons]
    · rw [lookup, if_neg he] at h
      rw [List.filter_cons_of_pos (by simp [he]), List.length_cons, length_filter_ne hnodup h, List.length_cons]

theorem size_erase (m : Assoc κ α) (h : m.contains k = true) : (m.erase k).size + 1 = m.size :=
  length_filter_ne m.nodup h

end Assoc

namespace ConnectionTable

/-- What can be done to the connections of a table. -/
inductive Change where
  | enter (transport : Nat) (peer : Peer) (remote : Address) (phase : Phase)
  | remove (id : ConnectionId)
  deriving DecidableEq

/-- A place that is emptied. -/
theorem length_live_set {slots : List (Option Connection)} {n : Nat} {c : Connection}
    (h : slots[n]? = some (some c)) :
    ((slots.set n none).filterMap id).length + 1 = (slots.filterMap id).length := by
  induction slots generalizing n with
  | nil => cases h
  | cons slot slots ih =>
    cases n with
    | zero =>
      obtain rfl := Option.some.inj h
      rfl
    | succ n =>
      rw [List.set_cons_succ]
      cases slot with
      | none => exact ih h
      | some c' => exact congrArg (· + 1) (ih h)

variable {t t' : ConnectionTable} {id j : ConnectionId} {c : Connection} {i : Nat} {p : Peer} {x : Change}
  {xs : List Change}

/-! ### Changes -/

/-- The removal of a dead id, or of one that was never given, changes nothing. -/
def change (t : ConnectionTable) : Change → ConnectionTable
  | .enter transport peer remote phase => (t.insert transport peer remote phase).2
  | .remove id => ((t.remove id).map (·.2)).getD t

def run (t : ConnectionTable) (xs : List Change) : ConnectionTable := xs.foldl change t

/-- The ids that are given on the way, in their order. -/
def given (t : ConnectionTable) : List Change → List ConnectionId
  | [] => []
  | .enter transport peer remote phase :: xs =>
    let (id, t) := t.insert transport peer remote phase
    id :: t.given xs
  | x :: xs => (t.change x).given xs

theorem run_append (t : ConnectionTable) (xs ys : List Change) : t.run (xs ++ ys) = (t.run xs).run ys :=
  List.foldl_append

theorem change_remove (t : ConnectionTable) (id : ConnectionId) : (t.get? id = none ∧ t.change (.remove id) = t) ∨
    ∃ c, t.get? id = some c ∧
      t.change (.remove id) = ⟨t.slots.set id.val none, t.byPeer.erase (c.transport, c.peer)⟩ := by
  cases hremove : t.remove id with
  | none =>
    left
    exact ⟨remove_eq_none.mp hremove, by rw [change, hremove]; rfl⟩
  | some r =>
    obtain ⟨c, hget, -, heq⟩ := remove_eq_some hremove
    right
    exact ⟨c, hget, by rw [change, hremove]; exact heq⟩

theorem get?_change_remove (t : ConnectionTable) (id j : ConnectionId) :
    (t.change (.remove id)).get? j = if id = j then none else t.get? j := by
  cases hremove : t.remove id with
  | none =>
    rw [change, hremove]
    split
    · rename_i heq
      subst heq
      exact remove_eq_none.mp hremove
    · rfl
  | some r =>
    rw [change, hremove]
    exact get?_remove hremove j

/-! ### Ids -/

theorem length_change_remove (t : ConnectionTable) (id : ConnectionId) :
    (t.change (.remove id)).slots.length = t.slots.length := by
  rcases t.change_remove id with ⟨-, heq⟩ | ⟨c, -, heq⟩
  · rw [heq]
  · rw [heq, List.length_set]

/-- Ids count up from the first that has not been given. -/
theorem given_eq (t : ConnectionTable) (xs : List Change) :
    (t.given xs).map (·.val) = List.range' t.slots.length (t.given xs).length := by
  induction xs generalizing t with
  | nil => rfl
  | cons x xs ih =>
    cases x with
    | enter transport peer remote phase =>
      have hlength : (t.insert transport peer remote phase).2.slots.length = t.slots.length + 1 :=
        List.length_append
      rw [given, List.map_cons, ih, hlength, List.length_cons, List.range'_succ]
      rfl
    | remove id =>
      rw [given, ih, length_change_remove]
      nofun

theorem ages_change (t : ConnectionTable) (x : Change) : Ages t (t.change x) := by
  cases x with
  | enter transport peer remote phase =>
    refine ⟨?_, fun {id} hdead => ?_⟩
    · rw [change, insert, List.length_append]
      exact Nat.le_add_right _ _
    · rw [change, get?_insert, if_neg, hdead.2]
      rintro rfl
      exact Nat.lt_irrefl _ hdead.1
  | remove id =>
    refine ⟨Nat.le_of_eq (length_change_remove t id).symm, fun {j} hdead => ?_⟩
    rw [get?_change_remove, hdead.2, ite_self]

theorem ages_run (t : ConnectionTable) (xs : List Change) : Ages t (t.run xs) := by
  induction xs generalizing t with
  | nil => exact .refl t
  | cons x xs ih => exact (ages_change t x).trans (ih _)

/-! ### What is found -/

/-- What is found is live, and carried by the transport to the peer. -/
def Found (t : ConnectionTable) : Prop :=
  ∀ i p id, t.find? i p = some id → ∃ c, t.get? id = some c ∧ c.transport = i ∧ c.peer = p

theorem found_change (h : t.Found) (x : Change) : (t.change x).Found := by
  intro i p id hfind
  cases x with
  | enter transport peer remote phase =>
    rw [change, find?_insert] at hfind
    rw [change, get?_insert]
    split at hfind
    · rename_i hpair
      obtain ⟨rfl, rfl⟩ := Prod.mk.inj hpair
      obtain rfl := Option.some.inj hfind
      exact ⟨_, if_pos rfl, rfl, rfl⟩
    · obtain ⟨c, hget, hplace⟩ := h i p id hfind
      refine ⟨c, ?_, hplace⟩
      rw [if_neg, hget]
      rintro rfl
      cases (get?_nextId t).symm.trans hget
  | remove id' =>
    rw [get?_change_remove]
    rcases t.change_remove id' with ⟨hdead, heq⟩ | ⟨c', hget', heq⟩
    · rw [heq] at hfind
      obtain ⟨c, hget, hplace⟩ := h i p id hfind
      refine ⟨c, ?_, hplace⟩
      rw [if_neg, hget]
      rintro rfl
      cases hdead.symm.trans hget
    · rw [heq, find?, Assoc.get?_erase] at hfind
      split at hfind
      · cases hfind
      · rename_i hpair
        obtain ⟨c, hget, hplace⟩ := h i p id hfind
        refine ⟨c, ?_, hplace⟩
        rw [if_neg, hget]
        rintro rfl
        obtain rfl := Option.some.inj (hget'.symm.trans hget)
        exact hpair (Prod.ext hplace.1 hplace.2)

theorem found_run (xs : List Change) : (empty.run xs).Found := by
  have hall : ∀ {t : ConnectionTable}, t.Found → (t.run xs).Found := by
    induction xs with
    | nil => exact id
    | cons x xs ih => exact fun h => ih (found_change h x)
  exact hall fun i p id hfind => nomatch hfind

/-! ### What is counted -/

theorem length_live_insert (t : ConnectionTable) (i : Nat) (p : Peer) (remote : Address) (phase : Phase) :
    (t.insert i p remote phase).2.live.length = t.live.length + 1 := by
  simp [insert, live, List.filterMap_append]

/-- All that is live is found under its transport and peer, and nothing else is; and the peers that are entered are as
    many as the connections. -/
structure Indexed (t : ConnectionTable) : Prop where
  found : t.Found
  finds : ∀ id c, t.get? id = some c → ∃ id', t.find? c.transport c.peer = some id'
  counted : t.peerCount = t.live.length

/-- Besides, each connection is found itself, so no two have the same transport and peer. -/
structure Exact (t : ConnectionTable) : Prop extends Indexed t where
  itself : ∀ id c, t.get? id = some c → t.find? c.transport c.peer = some id

/-- No connection that is entered has the transport and the peer of a live one. -/
def Change.Fresh (t : ConnectionTable) : Change → Prop
  | .enter transport peer _ _ => ∀ id c, t.get? id = some c → (c.transport, c.peer) ≠ (transport, peer)
  | .remove _ => True

theorem exact_empty : empty.Exact where
  found _ _ _ hfind := nomatch hfind
  finds _ _ hget := nomatch hget
  counted := rfl
  itself _ _ hget := nomatch hget

theorem Exact.of_itself (hfound : t.Found) (hcounted : t.peerCount = t.live.length)
    (hitself : ∀ id c, t.get? id = some c → t.find? c.transport c.peer = some id) : t.Exact :=
  ⟨⟨hfound, fun id c hget => ⟨id, hitself id c hget⟩, hcounted⟩, hitself⟩

theorem Exact.change (h : t.Exact) (hx : x.Fresh t) : (t.change x).Exact := by
  have hfound := found_change h.found x
  cases x with
  | enter transport peer remote phase =>
    have hnew : t.byPeer.contains (transport, peer) = false := by
      rw [Assoc.contains, Option.isSome_eq_false_iff, Option.isNone_iff_eq_none]
      refine Option.eq_none_iff_forall_ne_some.mpr fun id hfind => ?_
      obtain ⟨c, hget, rfl, rfl⟩ := h.found transport peer id hfind
      exact hx id c hget rfl
    refine .of_itself hfound ?_ fun id c hget => ?_
    · rw [ConnectionTable.change, length_live_insert, ← h.counted]
      exact (Assoc.size_insert ..).trans (if_neg (by simp [hnew]))
    · rw [ConnectionTable.change, get?_insert] at hget
      rw [ConnectionTable.change, find?_insert]
      split at hget
      · rename_i hid
        subst hid
        obtain rfl := Option.some.inj hget
        exact if_pos rfl
      · rw [if_neg (Ne.symm (hx id c hget))]
        exact h.itself id c hget
  | remove id =>
    rcases t.change_remove id with ⟨-, heq⟩ | ⟨c, hget, heq⟩
    · rw [heq]
      exact h
    · refine .of_itself hfound ?_ fun j c' hget' => ?_
      · have hlive := length_live_set (get?_eq_some_iff.mp hget)
        have hsize := t.byPeer.size_erase (k := (c.transport, c.peer)) (Option.isSome_of_eq_some (h.itself id c hget))
        have hcounted := h.counted
        rw [heq]
        simp only [peerCount, live] at hcounted ⊢
        omega
      · rw [get?_change_remove] at hget'
        split at hget'
        · cases hget'
        · rename_i hne
          rw [heq, find?, Assoc.get?_erase, if_neg, ← find?, h.itself j c' hget']
          intro hpair
          obtain ⟨hi, hp⟩ := Prod.mk.inj hpair
          have hself := h.itself id c hget
          rw [hi, hp, h.itself j c' hget'] at hself
          exact hne (Option.some.inj hself).symm

/-- Of two connections with the same transport and peer only one is counted. -/
theorem Indexed.not_change (h : t.Indexed) {remote : Address} {phase : Phase} (hget : t.get? id = some c) :
    ¬ (t.change (.enter c.transport c.peer remote phase)).Indexed := by
  intro h'
  obtain ⟨id', hfind⟩ := h.finds id c hget
  have hsize : (t.change (.enter c.transport c.peer remote phase)).peerCount = t.peerCount :=
    (Assoc.size_insert ..).trans (if_pos (Option.isSome_of_eq_some hfind))
  have hcounted := h'.counted
  rw [hsize, h.counted, change, length_live_insert] at hcounted
  omega

/-! ### Whole runs -/

theorem Exact.run (h : t.Exact) (hfresh : ∀ before x after, xs = before ++ x :: after → x.Fresh (t.run before)) :
    (t.run xs).Exact := by
  induction xs generalizing t with
  | nil => exact h
  | cons x xs ih =>
    refine ih (h.change (hfresh [] x xs rfl)) fun before y after heq => ?_
    exact hfresh (x :: before) y after (congrArg (x :: ·) heq)

/-- Whatever is entered and removed: what is found is live, and has the transport and the peer; ids count up from zero;
    and an id that was live when it was removed is never live again. At every point what is live is found and counted,
    exactly if no connection is entered with the transport and the peer of one that is live. -/
theorem run_indexed (xs : List Change) :
    (∀ i p id, (empty.run xs).find? i p = some id →
      ∃ c, (empty.run xs).get? id = some c ∧ c.transport = i ∧ c.peer = p) ∧
    (empty.given xs).map (·.val) = List.range (empty.given xs).length ∧
    (∀ before id after, xs = before ++ .remove id :: after → (empty.run before).isLive id = true →
      (empty.run xs).isLive id = false) ∧
    ((∀ before, before <+: xs → (empty.run before).Indexed) ↔
      ∀ before x after, xs = before ++ x :: after → x.Fresh (empty.run before)) := by
  refine ⟨found_run xs, ?_, fun before id after heq hlive => ?_, fun hall before x after heq => ?_,
    fun hfresh before hbefore => ?_⟩
  · rw [given_eq, List.range_eq_range']
    rfl
  · obtain ⟨c, hget⟩ := Option.isSome_iff_exists.mp hlive
    have hdead : ((empty.run before).change (.remove id)).IsDead id := by
      refine ⟨?_, by rw [get?_change_remove, if_pos rfl]⟩
      rw [length_change_remove]
      exact lt_of_get? hget
    rw [isLive, heq, run_append, Option.isSome_eq_false_iff, Option.isNone_iff_eq_none]
    exact (ages_run _ after).dead hdead
  · cases x with
    | enter transport peer remote phase =>
      intro id c hget hpair
      obtain ⟨rfl, rfl⟩ := Prod.mk.inj hpair
      have hentered := hall (before ++ [.enter c.transport c.peer remote phase]) ⟨after, by rw [heq]; simp⟩
      rw [run_append] at hentered
      exact (hall before ⟨_, heq.symm⟩).not_change hget hentered
    | remove id => trivial
  · obtain ⟨rest, rfl⟩ := hbefore
    refine (exact_empty.run fun before' x after heq => ?_).toIndexed
    exact hfresh before' x (after ++ rest) (by rw [heq, List.append_assoc, List.cons_append])

/-- A second connection of the same peer is live when the first one is removed, but neither found nor counted. -/
theorem run_unindexed :
    let enter : Change := .enter 0 ⟨1⟩ ⟨Host.loopback, 27015⟩ .awaitingApproval
    let t := empty.run [enter, enter, .remove ⟨0⟩]
    (∃ c, t.get? ⟨1⟩ = some c ∧ c.transport = 0 ∧ c.peer = ⟨1⟩) ∧ t.find? 0 ⟨1⟩ = none ∧ t.live.length = 1 ∧
      t.peerCount = 0 ∧ ¬ t.Indexed :=
  ⟨⟨_, rfl, rfl, rfl⟩, rfl, rfl, rfl, fun h => nomatch h.counted⟩

end ConnectionTable
end StateSync
