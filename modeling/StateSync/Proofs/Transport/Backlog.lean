import StateSync.Proofs.Transport.Exchange

/-! What an end can still get without others sending any (`Network.backlog`): a poll takes one event of it, and nothing
    that the end does about its peers adds to it. What an end does leaves all endpoints but its own and the remote one
    as they are. -/

namespace StateSync

namespace Assoc
variable {κ α : Type} [DecidableEq κ] {m : Assoc κ α} {k : κ} {x y : α}

theorem sum_put (x : α) (f : α → Nat) : ∀ {es : List (κ × α)}, lookup k es = some y →
    ((put k x es).map fun e => f e.2).foldr (· + ·) 0 + f y = (es.map fun e => f e.2).foldr (· + ·) 0 + f x
  | [], h => by cases h
  | e :: es, h => by
    by_cases he : e.1 = k
    · simp only [lookup, he, if_true, Option.some.injEq] at h
      simp only [put, he, if_true, List.map_cons, List.foldr_cons, h]
      omega
    · simp only [lookup, he, if_false] at h
      have ih := sum_put x f h
      simp only [put, he, if_false, List.map_cons, List.foldr_cons]
      omega

theorem sum_filter (f : α → Nat) : ∀ {es : List (κ × α)}, (es.map (·.1)).Nodup → lookup k es = some y →
    ((es.filter fun e => e.1 ≠ k).map fun e => f e.2).foldr (· + ·) 0 + f y = (es.map fun e => f e.2).foldr (· + ·) 0
  | [], _, h => by cases h
  | e :: es, hnodup, h => by
    obtain ⟨hnew, hnodup⟩ := List.nodup_cons.mp hnodup
    by_cases he : e.1 = k
    · simp only [lookup, he, if_true, Option.some.injEq] at h
      have hrest : es.filter (fun e => e.1 ≠ k) = es := by
        refine List.filter_eq_self.mpr fun e' he' => decide_eq_true fun heq => hnew ?_
        exact List.mem_map.mpr ⟨e', he', heq.trans he.symm⟩
      rw [List.filter_cons_of_neg (by simp [he]), hrest, List.map_cons, List.foldr_cons, h, Nat.add_comm]
    · simp only [lookup, he, if_false] at h
      have ih := sum_filter f hnodup h
      rw [List.filter_cons_of_pos (by simp [he]), List.map_cons, List.foldr_cons, List.map_cons, List.foldr_cons]
      omega

/-- What the values come to, when one of them is exchanged. -/
theorem sum_values_insert (f : α → Nat) (h : m.get? k = some y) :
    ((m.insert k x).values.map f).foldr (· + ·) 0 + f y = (m.values.map f).foldr (· + ·) 0 + f x := by
  have hsum := sum_put x f h
  rw [values, insert, List.map_map, values, List.map_map]
  exact hsum

/-- What the values come to without one of them. -/
theorem sum_values_erase (f : α → Nat) (h : m.get? k = some y) :
    ((m.erase k).values.map f).foldr (· + ·) 0 + f y = (m.values.map f).foldr (· + ·) 0 := by
  have hsum := sum_filter f m.nodup h
  rw [values, erase, List.map_map, values, List.map_map]
  exact hsum

end Assoc

/-- The notices that a link can still cause. -/
def Link.weight (l : Link) : Nat := if l.state = .connected then 1 else 2

theorem Link.weight_pos (l : Link) : 0 < l.weight := by
  unfold weight
  split <;> decide

namespace Network
variable {n n' : Network} {a b : Address} {p : Peer} {e : Endpoint} {l : Link}

theorem backlog_eq (he : n.endpoint? a = some e) :
    n.backlog a = e.inbox.length + (e.links.values.map Link.weight).foldr (· + ·) 0 := by
  rw [backlog, he]
  rfl

theorem backlog_congr (h : n'.endpoint? a = n.endpoint? a) : n'.backlog a = n.backlog a := by
  unfold backlog
  rw [h]

/-! ### Single updates -/

theorem backlog_update {f : Endpoint → Endpoint} (hf : ∀ e, (f e).inbox = e.inbox ∧ (f e).links = e.links) (n : Network)
    (a b : Address) : (n.update a f).backlog b = n.backlog b := by
  unfold backlog
  rw [endpoint?_update]
  by_cases hab : a = b
  · rw [if_pos hab]
    cases n.endpoint? b with
    | none => rfl
    | some e =>
      rw [Option.map_some]
      dsimp only
      rw [(hf e).1, (hf e).2]
  · rw [if_neg hab]

theorem endpoint?_update_of_ne (n : Network) (hab : a ≠ b) (f : Endpoint → Endpoint) :
    (n.update a f).endpoint? b = n.endpoint? b := by
  rw [endpoint?_update, if_neg hab]

theorem backlog_post_le (n : Network) (a : Address) (release : Nat) (ev : TransportEvent) :
    (n.post a release ev).backlog a ≤ n.backlog a + 1 := by
  cases he : n.endpoint? a with
  | none =>
    have hsame : (n.post a release ev).endpoint? a = n.endpoint? a := by rw [post, endpoint?_update, if_pos rfl, he]; rfl
    rw [backlog_congr hsame]
    exact Nat.le_succ _
  | some e =>
    have hpost : (n.post a release ev).endpoint? a = some { e with inbox := Parcel.enqueue ⟨release, ev⟩ e.inbox } := by
      rw [post, endpoint?_update, if_pos rfl, he]
      rfl
    rw [backlog_eq hpost, backlog_eq he]
    simp only [Parcel.length_enqueue]
    omega

theorem endpoint?_of_link? (hl : n.link? a p = some l) : ∃ e, n.endpoint? a = some e ∧ e.links.get? p = some l :=
  Option.bind_eq_some_iff.mp hl

theorem backlog_setLink (hl : n.link? a p = some l) (l' : Link) :
    (n.setLink a p l').backlog a + l.weight = n.backlog a + l'.weight := by
  obtain ⟨e, he, hget⟩ := endpoint?_of_link? hl
  have hset : (n.setLink a p l').endpoint? a = some { e with links := e.links.insert p l' } := by
    rw [setLink, endpoint?_update, if_pos rfl, he]
    rfl
  have hsum := Assoc.sum_values_insert (x := l') Link.weight hget
  rw [backlog_eq hset, backlog_eq he]
  dsimp only
  omega

theorem backlog_dropLink (hl : n.link? a p = some l) : (n.dropLink a p).backlog a + l.weight = n.backlog a := by
  obtain ⟨e, he, hget⟩ := endpoint?_of_link? hl
  have hdrop : (n.dropLink a p).endpoint? a = some { e with links := e.links.erase p } := by
    rw [dropLink, endpoint?_update, if_pos rfl, he]
    rfl
  have hsum := Assoc.sum_values_erase Link.weight hget
  rw [backlog_eq hdrop, backlog_eq he]
  dsimp only
  omega

/-! ### What an end does -/

/-- An end has done something about one of its peers: the time is as before, an endpoint at neither end of the link is
    as before, and nothing more can come to the end than could before. -/
structure Spends (n n' : Network) (a : Address) (p : Peer) : Prop where
  clock : n'.clock = n.clock
  endpoint? : ∀ {b}, b ≠ a → (∀ q st, n.wire? a p ≠ some ⟨b, q, st⟩) → n'.endpoint? b = n.endpoint? b
  backlog : n'.backlog a ≤ n.backlog a

theorem Spends.refl (n : Network) (a : Address) (p : Peer) : Spends n n a p := ⟨rfl, fun _ _ => rfl, Nat.le_refl _⟩

theorem Spends.trans {n'' : Network} (h : Spends n n' a p) (h' : Spends n' n'' a p)
    (hwire : ∀ {b q st}, n'.wire? a p = some ⟨b, q, st⟩ → ∃ st', n.wire? a p = some ⟨b, q, st'⟩) : Spends n n'' a p where
  clock := h'.clock.trans h.clock
  endpoint? hb hw := by
    refine (h'.endpoint? hb fun q st hw' => ?_).trans (h.endpoint? hb hw)
    obtain ⟨st', hw₀⟩ := hwire hw'
    exact hw q st' hw₀
  backlog := Nat.le_trans h'.backlog h.backlog

theorem Sound.spends_approve (h : n.Sound) (a : Address) (p : Peer) : Spends n (n.approve a p).2 a p := by
  cases hl : n.link? a p with
  | none =>
    rw [approve_none (Option.map_eq_none_iff.mpr hl)]
    exact .refl n a p
  | some l =>
    have hw := wire?_of_link? hl
    have hne : l.remote ≠ a := h.apart hw
    cases hst : l.state with
    | connected =>
      rw [approve_connected (hw.trans (by rw [Link.wire, hst]))]
      exact .refl n a p
    | awaitingApproval =>
      obtain ⟨l', hl', heq⟩ := h.approve_eq hl hst
      rw [heq]
      let n₁ := n.setLink a p { l with state := .connected }
      let n₂ := n.join a p l l.remote l.remotePeer l'
      let n₃ := n₂.post a n.clock (.connected p "")
      have hfar : ∀ {b}, b ≠ l.remote → n₂.endpoint? b = n₁.endpoint? b := fun hb =>
        endpoint?_update_of_ne _ (Ne.symm hb) _
      refine ⟨rfl, fun {b} hb hw' => ?_, ?_⟩
      · have hremote : b ≠ l.remote := fun heq => hw' l.remotePeer l.state (heq ▸ hw)
        refine (endpoint?_update_of_ne _ hremote.symm _).trans ((endpoint?_update_of_ne _ (Ne.symm hb) _).trans ?_)
        exact (hfar hremote).trans (endpoint?_update_of_ne _ (Ne.symm hb) _)
      · -- The link comes to one notice less, and the notice is there.
        have hset := backlog_setLink hl { l with state := .connected }
        have hheavy : l.weight = 2 := if_neg (by rw [hst]; exact LinkState.noConfusion)
        have hlight : ({ l with state := .connected } : Link).weight = 1 := rfl
        rw [hheavy, hlight] at hset
        have hsame : n₂.backlog a = n₁.backlog a := backlog_congr (hfar hne.symm)
        have hpost : n₃.backlog a ≤ n₂.backlog a + 1 := backlog_post_le ..
        have hlast : (n₃.post l.remote n.clock (.connected l.remotePeer "")).backlog a = n₃.backlog a :=
          backlog_congr (endpoint?_update_of_ne _ hne _)
        calc (n₃.post l.remote n.clock (.connected l.remotePeer "")).backlog a
          _ = n₃.backlog a := hlast
          _ ≤ n₁.backlog a + 1 := hsame ▸ hpost
          _ = n.backlog a := Nat.succ.inj hset

theorem Sound.spends_sever (h : n.Sound) (a : Address) (p : Peer) (reason : String) :
    Spends n (n.sever a p reason) a p := by
  cases hl : n.link? a p with
  | none =>
    rw [sever_none (Option.map_eq_none_iff.mpr hl)]
    exact .refl n a p
  | some l =>
    have hne : l.remote ≠ a := h.apart (wire?_of_link? hl)
    let n₁ := (n.dropLink a p).post a n.clock (.disconnected p reason)
    have hdrop := backlog_dropLink hl
    have hpost : n₁.backlog a ≤ (n.dropLink a p).backlog a + 1 := backlog_post_le _ a n.clock _
    have hpos := l.weight_pos
    have hone : n₁.backlog a ≤ n.backlog a := by omega
    have hsame : ∀ {b}, b ≠ a → n₁.endpoint? b = n.endpoint? b := fun hb =>
      (endpoint?_update_of_ne _ (Ne.symm hb) _).trans (endpoint?_update_of_ne _ (Ne.symm hb) _)
    unfold Network.sever
    rw [hl]
    dsimp only
    split
    · refine ⟨rfl, fun {b} hb hw => ?_, ?_⟩
      · have hremote : b ≠ l.remote := fun heq => hw l.remotePeer l.state (heq ▸ wire?_of_link? hl)
        refine (endpoint?_update_of_ne _ hremote.symm _).trans ((endpoint?_update_of_ne _ hremote.symm _).trans ?_)
        exact hsame hb
      · refine Nat.le_trans (Nat.le_of_eq (backlog_congr ?_)) hone
        exact (endpoint?_update_of_ne _ hne _).trans (endpoint?_update_of_ne _ hne _)
    · exact ⟨rfl, fun hb _ => hsame hb, hone⟩

theorem Sound.spends_transmit (h : n.Sound) (a : Address) (p : Peer) (bytes : Bytes) (d : Delivery) (delay : Nat) :
    Spends n (n.transmit a p bytes d delay).2 a p := by
  unfold Network.transmit
  cases hl : n.link? a p with
  | none => exact .refl n a p
  | some l =>
    have hne : l.remote ≠ a := h.apart (wire?_of_link? hl)
    dsimp only
    split
    · exact .refl n a p
    · have hcount : ∀ (n : Network) (c : Address), (n.update a (countSent bytes.length)).backlog c = n.backlog c :=
        fun n c => backlog_update (f := countSent bytes.length) (fun _ => ⟨rfl, rfl⟩) n a c
      -- The packet goes to the remote endpoint; here only the release of ordered packets is noted.
      have hrest : ∀ {n₁ : Network} (release : Nat), n₁.clock = n.clock → n₁.backlog a = n.backlog a →
          (∀ {b}, b ≠ a → n₁.endpoint? b = n.endpoint? b) →
          Spends n ((n₁.post l.remote release (.data l.remotePeer bytes)).update a (countSent bytes.length)) a p := by
        intro n₁ release hclock hbacklog hsame
        refine ⟨hclock, fun {b} hb hw => ?_, ?_⟩
        · have hremote : b ≠ l.remote := fun heq => hw l.remotePeer l.state (heq ▸ wire?_of_link? hl)
          refine (endpoint?_update_of_ne _ (Ne.symm hb) _).trans ((endpoint?_update_of_ne _ hremote.symm _).trans ?_)
          exact hsame hb
        · rw [hcount, ← hbacklog]
          exact Nat.le_of_eq (backlog_congr (endpoint?_update_of_ne _ hne _))
      cases d.isOrdered with
      | false => exact hrest _ rfl rfl fun _ => rfl
      | true =>
        have hset := backlog_setLink hl { l with orderedRelease := max (n.clock + delay) l.orderedRelease }
        have hweight : ({ l with orderedRelease := max (n.clock + delay) l.orderedRelease } : Link).weight = l.weight := rfl
        rw [hweight] at hset
        exact hrest _ rfl (Nat.add_right_cancel hset) fun hb => endpoint?_update_of_ne _ (Ne.symm hb) _

/-- An update of the sender's accounts. -/
theorem Spends.update {n₁ : Network} (h : Spends n n₁ a p) {f : Endpoint → Endpoint}
    (hf : ∀ e, (f e).inbox = e.inbox ∧ (f e).links = e.links) : Spends n (n₁.update a f) a p where
  clock := h.clock
  endpoint? hb hw := (endpoint?_update_of_ne _ (Ne.symm hb) _).trans (h.endpoint? hb hw)
  backlog := by
    rw [backlog_update hf]
    exact h.backlog

theorem Sound.spends_send (h : n.Sound) (a : Address) (p : Peer) (bytes : Bytes) (d : Delivery) :
    Spends n (n.send a p bytes d).2 a p := by
  have hcounted : Spends n { n with sends := n.sends + 1 } a p :=
    ⟨rfl, fun _ _ => rfl, Nat.le_of_eq (backlog_congr rfl)⟩
  have hnoted : ∀ {n₁ : Network} (i : Impairment), Spends n n₁ a p → Spends n (n₁.noteDelay i (n.luck n.sends)) a p :=
    fun _ hs => ⟨hs.clock, hs.endpoint?, hs.backlog⟩
  have hsound : Network.Sound { n with sends := n.sends + 1 } := h.quiet (Quiet.sends n)
  have htransmit : ∀ {n₁ : Network} delay, n₁.Sound → Spends n n₁ a p → (∀ b q, n₁.wire? b q = n.wire? b q) →
      Spends n (n₁.transmit a p bytes d delay).2 a p := fun delay hn hs hw =>
    hs.trans (hn.spends_transmit a p bytes d delay) fun hw' => ⟨_, (hw a p).symm.trans hw'⟩
  unfold send
  split
  · exact .refl n a p
  · dsimp only
    split
    · exact htransmit _ (hsound.quiet (.noteDelay ..)) (hnoted _ hcounted) fun _ _ => rfl
    · split
      · exact hcounted.update (f := countDropped) fun _ => ⟨rfl, rfl⟩
      · have hwindow := fun e => (restartWindow_keeps n.clock e).2
        have hopened := hcounted.update hwindow
        split
        · exact hopened.update (f := countDropped) fun _ => ⟨rfl, rfl⟩
        · refine htransmit _ ((hsound.update hwindow a).quiet (.noteDelay ..)) (hnoted _ hopened) fun b q => ?_
          exact wire?_update (fun e => (hwindow e).2) _ a b q

/-! ### Polls -/

/-- No event is due at an address. -/
def Drained (n : Network) (a : Address) : Prop := ∀ x ∈ n.inbox a, n.clock < x.release

theorem Drained.congr (h : n.Drained a) (hclock : n'.clock = n.clock) (he : n'.endpoint? a = n.endpoint? a) :
    n'.Drained a := by
  intro x hx
  rw [inbox, he] at hx
  rw [hclock]
  exact h x hx

/-- What tells of a link is due at once. -/
theorem Drained.not_status (h : n.Drained a) (hn : n.Sound) {note : Note} (hs : note.isStatus = true) :
    note ∉ n.notes a p := by
  intro hmem
  obtain ⟨x, hx, -, rfl⟩ := mem_notesFor.mp hmem
  exact Nat.lt_irrefl _ (Nat.lt_of_lt_of_le (h x hx) (hn.prompt hx hs))

theorem Sound.drained_of_poll (h : n.Sound) (hpoll : n.poll a = (none, n')) : n.Drained a := by
  intro x hx
  rw [inbox] at hx
  unfold Network.poll at hpoll
  cases he : n.endpoint? a with
  | none =>
    rw [he] at hx
    cases hx
  | some e =>
    rw [he] at hpoll hx
    cases hinbox : e.inbox with
    | nil =>
      rw [Option.map_some, hinbox] at hx
      cases hx
    | cons y ys =>
      rw [Option.map_some, hinbox] at hpoll hx
      dsimp only at hpoll
      split at hpoll
      · split at hpoll <;> cases hpoll
      · rename_i hlate
        have hsorted := h.sorted a
        rw [inbox, he, Option.map_some, hinbox] at hsorted
        rcases List.mem_cons.mp hx with rfl | hx
        · exact Nat.not_le.mp hlate
        · exact Nat.lt_of_lt_of_le (Nat.not_le.mp hlate) ((List.pairwise_cons.mp hsorted).1 x hx)

theorem backlog_poll {ev : TransportEvent} (hpoll : n.poll a = (some ev, n')) :
    n'.clock = n.clock ∧ n'.backlog a + 1 = n.backlog a ∧ ∀ {b}, b ≠ a → n'.endpoint? b = n.endpoint? b := by
  unfold Network.poll at hpoll
  cases he : n.endpoint? a with
  | none =>
    rw [he] at hpoll
    cases hpoll
  | some e =>
    rw [he] at hpoll
    cases hinbox : e.inbox with
    | nil =>
      rw [Option.map_some, hinbox] at hpoll
      cases hpoll
    | cons y ys =>
      rw [Option.map_some, hinbox] at hpoll
      dsimp only at hpoll
      have htaken : (n.update a fun e => { e with inbox := ys }).backlog a + 1 = n.backlog a := by
        have hget : (n.update a fun e => { e with inbox := ys }).endpoint? a = some { e with inbox := ys } := by
          rw [endpoint?_update, if_pos rfl, he]
          rfl
        rw [backlog_eq hget, backlog_eq he, hinbox, List.length_cons]
        dsimp only
        omega
      split at hpoll
      · split at hpoll
        · rename_i bytes _
          obtain ⟨-, rfl⟩ := Prod.mk.inj hpoll
          refine ⟨rfl, ?_, fun hb => (endpoint?_update_of_ne _ (Ne.symm hb) _).trans
            (endpoint?_update_of_ne _ (Ne.symm hb) _)⟩
          rw [backlog_update (f := countReceived bytes.length) fun _ => ⟨rfl, rfl⟩]
          exact htaken
        · obtain ⟨-, rfl⟩ := Prod.mk.inj hpoll
          exact ⟨rfl, htaken, fun hb => endpoint?_update_of_ne _ (Ne.symm hb) _⟩
      · cases hpoll

end Network
end StateSync
