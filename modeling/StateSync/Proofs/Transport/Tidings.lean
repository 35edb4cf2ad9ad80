import StateSync.Proofs.Transport.Ends
import StateSync.Proofs.Transport.Happenings
import StateSync.Proofs.Transport.Ledger

/-! What the two ends of a link are told of it. A link is asked for, is granted or not, and is taken down or not
    (`Fate`); its state follows from that, and so does all that each end is told, in this order (`Fate.tidings`). Whatever
    is done on a network, an end hears of the link what its fate is, or a first part of it, hears no packet before it has
    heard that it is connected, and will have heard all of it when none is due at its endpoint any more
    (`run_tidings`). -/

namespace StateSync

/-- What becomes of a link that was asked for. One that is gone has been connected before, or not. -/
inductive Fate where
  | asked
  | joined
  | parted (approved : Bool) (reason : String)
  deriving DecidableEq, Repr

namespace Fate
variable {f : Fate} {p : Peer} {st : Option LinkState} {reason : String}

/-- The state of the link, if it is still there. -/
def state : Fate → Option LinkState
  | .asked => some .awaitingApproval
  | .joined => some .connected
  | .parted _ _ => none

/-- The fate after an act which leaves the link in a state, or takes it down for a reason. -/
def after : Fate → Option LinkState → String → Fate
  | .asked, some .awaitingApproval, _ => .asked
  | .asked, some .connected, _ => .joined
  | .asked, none, reason => .parted false reason
  | .joined, some _, _ => .joined
  | .joined, none, reason => .parted true reason
  | .parted approved reason, _, _ => .parted approved reason

/-- Whether the link has ever been connected. -/
def approved : Fate → Bool
  | .asked => false
  | .joined => true
  | .parted approved _ => approved

/-- What an end is told of the link, besides that it was asked for. -/
def tidings (p : Peer) : Fate → List TransportEvent
  | .asked => []
  | .joined => [.connected p ""]
  | .parted approved reason => (if approved then [.connected p ""] else []) ++ [.disconnected p reason]

theorem after_state (f : Fate) (reason : String) : f.after f.state reason = f := by
  cases f <;> rfl

theorem tidings_parted (h : f.state ≠ none) (p : Peer) (reason : String) :
    (f.after none reason).tidings p = f.tidings p ++ [.disconnected p reason] := by
  cases f with
  | asked => rfl
  | joined => rfl
  | parted => exact absurd rfl h

theorem mem_tidings_iff (f : Fate) (p : Peer) : .connected p "" ∈ f.tidings p ↔ f.approved = true := by
  cases f with
  | asked => simp [tidings, approved]
  | joined => simp [tidings, approved]
  | parted approved reason => cases approved <;> simp [tidings, Fate.approved]

theorem approved_after (h : f.approved = true) (st : Option LinkState) (reason : String) :
    (f.after st reason).approved = true := by
  cases f with
  | asked => cases h
  | joined => cases st <;> rfl
  | parted => exact h

theorem approved_of_after (h : (f.after st reason).approved = true) : f.approved = true ∨ st = some .connected := by
  cases f with
  | asked =>
    rcases st with _ | (_ | _)
    · cases h
    · cases h
    · exact Or.inr rfl
  | joined => exact Or.inl rfl
  | parted => exact Or.inl h

/-- A link that is gone was there before, or it is now that it goes. -/
theorem parted_of_after {approved : Bool} {why : String} (h : f.after st reason = .parted approved why) :
    f = .parted approved why ∨ (f.state ≠ none ∧ st = none ∧ why = reason) := by
  cases f with
  | asked =>
    rcases st with _ | (_ | _)
    · exact Or.inr ⟨Option.some_ne_none _, rfl, (parted.inj h).2.symm⟩
    · cases h
    · cases h
  | joined =>
    cases st with
    | none => exact Or.inr ⟨Option.some_ne_none _, rfl, (parted.inj h).2.symm⟩
    | some st => cases h
  | parted => exact Or.inl h

end Fate

/-- Those of some events that tell of a link. -/
def statuses (events : List TransportEvent) : List TransportEvent := events.filter (!·.isPacket)

/-- No packet comes before the word that the link is connected. -/
def Orderly (p : Peer) : List TransportEvent → Prop
  | [] => True
  | e :: events => e = .connected p "" ∨ (e.isPacket = false ∧ Orderly p events)

section
variable {e : TransportEvent} {us vs xs ys old new : List TransportEvent} {p : Peer}

theorem statuses_append (xs ys : List TransportEvent) : statuses (xs ++ ys) = statuses xs ++ statuses ys :=
  List.filter_append ..

theorem statuses_packets (h : ∀ v ∈ vs, v.isPacket = true) : statuses vs = [] :=
  List.filter_eq_nil_iff.mpr fun v hv => by simp [h v hv]

theorem mem_statuses : e ∈ statuses xs ↔ e ∈ xs ∧ e.isPacket = false := by
  simp [statuses]

theorem Orderly.of_append (h : Orderly p (xs ++ ys)) : Orderly p xs := by
  induction xs with
  | nil => trivial
  | cons x xs ih => exact h.imp_right (And.imp_right ih)

theorem Orderly.put (h : Orderly p (us ++ vs)) (he : e.isPacket = false ∨ .connected p "" ∈ us) :
    Orderly p (us ++ e :: vs) := by
  induction us with
  | nil =>
    rcases he with he | he
    · exact Or.inr ⟨he, h⟩
    · cases he
  | cons u us ih =>
    rcases h with rfl | ⟨hu, h⟩
    · exact Or.inl rfl
    · by_cases heq : u = .connected p ""
      · exact Or.inl heq
      · refine Or.inr ⟨hu, ih h (he.imp_right fun hmem => ?_)⟩
        exact (List.mem_cons.mp hmem).resolve_left (Ne.symm heq)

/-- What is put in comes behind all that is told of the link. -/
theorem Inserts.statuses_eq (h : Inserts e old new) (xs : List TransportEvent) :
    statuses (xs ++ new) = statuses (xs ++ old) ++ statuses [e] := by
  obtain ⟨us, vs, rfl, rfl, hvs⟩ := h
  have hsplit : us ++ e :: vs = us ++ [e] ++ vs := by rw [List.append_assoc, List.singleton_append]
  simp only [hsplit, statuses_append, statuses_packets hvs, List.append_nil, List.append_assoc]

theorem Inserts.orderly (h : Inserts e old new) (ho : Orderly p (xs ++ old))
    (he : e.isPacket = false ∨ .connected p "" ∈ statuses (xs ++ old)) : Orderly p (xs ++ new) := by
  obtain ⟨us, vs, rfl, rfl, hvs⟩ := h
  rw [← List.append_assoc] at ho ⊢
  refine ho.put (he.imp_right fun hmem => ?_)
  rw [← List.append_assoc, statuses_append, statuses_packets hvs, List.append_nil] at hmem
  exact (mem_statuses.mp hmem).1

end

namespace Network
variable {n n' : Network} {a b c : Address} {p q r : Peer} {w : Wire} {st : LinkState} {x : Act} {acts : List Act}
  {base heard : List TransportEvent} {f : Fate}

/-- How far the link of an end has come. -/
def stateAt (n : Network) (a : Address) (p : Peer) : Option LinkState := (n.wire? a p).map (·.state)

/-- What becomes of the link of an end while a network runs. -/
def fate (n : Network) (a : Address) (p : Peer) (f : Fate) : List Act → Fate
  | [] => f
  | x :: xs => (n.act x).fate a p (f.after ((n.act x).stateAt a p) x.reason) xs

/-- The events about a peer that are polled at an address, while a network runs. -/
def hears (n : Network) (c : Address) (r : Peer) (acts : List Act) : List TransportEvent :=
  (n.polled c acts).filter (·.peer = r)

theorem stateAt_eq (hw : n.wire? a p = some w) : n.stateAt a p = some w.state := by
  rw [stateAt, hw]
  rfl

theorem stateAt_eq_none_iff : n.stateAt a p = none ↔ n.wire? a p = none := Option.map_eq_none_iff

theorem hears_cons (n : Network) (c : Address) (r : Peer) (x : Act) (xs : List Act) :
    n.hears c r (x :: xs) = (n.polledBy x c).filter (·.peer = r) ++ (n.act x).hears c r xs :=
  List.filter_append ..

theorem hears_append (n : Network) (c : Address) (r : Peer) (xs ys : List Act) :
    n.hears c r (xs ++ ys) = n.hears c r xs ++ (n.run xs).hears c r ys := by
  induction xs generalizing n with
  | nil => rfl
  | cons x xs ih => rw [List.cons_append, hears_cons, ih, hears_cons, List.append_assoc]; rfl

/-! ### An end of a link -/

/-- How an end with a link of some fate stands: `base` and the tidings of the fate is all that it is told of the link. -/
structure Told (n : Network) (c : Address) (r : Peer) (base heard : List TransportEvent) (f : Fate) : Prop where
  fresh : r.val < n.nextPeer
  state : n.stateAt c r = f.state
  told : statuses (heard ++ n.mail c r) = base ++ f.tidings r
  orderly : Orderly r (heard ++ n.mail c r)

/-- An end with a number that was given out, and to which nothing comes any more. -/
structure Silent (n : Network) (c : Address) (r : Peer) : Prop where
  fresh : r.val < n.nextPeer
  wire : n.wire? c r = none
  mail : n.mail c r = []

theorem Silent.act (h : n.Silent c r) (hn : n.Sound) (x : Act) :
    (n.act x).Silent c r ∧ (n.polledBy x c).filter (·.peer = r) = [] := by
  have hfresh := Nat.lt_of_lt_of_le h.fresh (continues_act n x).nextPeer
  have hhappens := hn.happens h.fresh x c
  generalize (n.polledBy x c).filter (·.peer = r) = now at hhappens ⊢
  cases hhappens with
  | nothing wire mail => exact ⟨⟨hfresh, wire.trans h.wire, mail.trans h.mail⟩, rfl⟩
  | heard wire mail => exact (nomatch h.mail.symm.trans mail)
  | packet connected => exact (nomatch h.wire.symm.trans connected)
  | joined before => exact (nomatch h.wire.symm.trans before)
  | parted before => exact (nomatch h.wire.symm.trans before)
  | closed act wire mail => exact ⟨⟨hfresh, wire, mail⟩, rfl⟩

theorem Silent.hears_eq_nil (h : n.Silent c r) (hn : n.Sound) (acts : List Act) : n.hears c r acts = [] := by
  induction acts generalizing n with
  | nil => rfl
  | cons x xs ih =>
    obtain ⟨hsilent, hnone⟩ := h.act hn x
    rw [hears_cons, hnone, List.nil_append]
    exact ih hsilent (hn.act x)

/-- As long as the endpoint is not closed, an end is told what the fate of its link is. -/
theorem Told.act (h : n.Told c r base heard f) (hn : n.Sound) (hx : x ≠ .close c) :
    (n.act x).Told c r base (heard ++ (n.polledBy x c).filter (·.peer = r))
      (f.after ((n.act x).stateAt c r) x.reason) := by
  have hfresh := Nat.lt_of_lt_of_le h.fresh (continues_act n x).nextPeer
  have hhappens := hn.happens h.fresh x c
  have htold := h.told
  have horderly := h.orderly
  -- Where the link stays as it is, so does its fate.
  have hsame : (n.act x).wire? c r = n.wire? c r →
      (n.act x).stateAt c r = f.state ∧ f.after ((n.act x).stateAt c r) x.reason = f := fun hwire => by
    have hstate : (n.act x).stateAt c r = f.state := by rw [stateAt, hwire, ← h.state, stateAt]
    exact ⟨hstate, hstate ▸ f.after_state x.reason⟩
  generalize (n.polledBy x c).filter (·.peer = r) = now at hhappens ⊢
  cases hhappens with
  | nothing wire mail =>
    obtain ⟨hstate, hfate⟩ := hsame wire
    rw [hfate, List.append_nil]
    exact ⟨hfresh, hstate, mail ▸ htold, mail ▸ horderly⟩
  | @heard e wire mail =>
    obtain ⟨hstate, hfate⟩ := hsame wire
    rw [mail, List.append_cons] at htold horderly
    rw [hfate]
    exact ⟨hfresh, hstate, htold, horderly⟩
  | @packet b q bytes connected wire mail =>
    obtain ⟨hstate, hfate⟩ := hsame wire
    have hjoined : f = .joined := by
      have hst := (stateAt_eq connected).symm.trans h.state
      cases f <;> first | rfl | cases hst
    have hknown : .connected r "" ∈ statuses (heard ++ n.mail c r) := by
      rw [htold, hjoined]
      exact List.mem_append_right base List.mem_cons_self
    rw [hfate, List.append_nil]
    refine ⟨hfresh, hstate, ?_, mail.orderly horderly (Or.inr hknown)⟩
    rw [mail.statuses_eq, htold]
    exact List.append_nil _
  | joined before after mail =>
    have hasked : f = .asked := by
      have hst := (stateAt_eq before).symm.trans h.state
      cases f <;> first | rfl | cases hst
    have hstate := stateAt_eq after
    rw [hasked] at htold ⊢
    rw [hstate, List.append_nil]
    refine ⟨hfresh, hstate, ?_, mail.orderly horderly (Or.inl rfl)⟩
    rw [mail.statuses_eq, htold, List.append_assoc]
    rfl
  | parted before after mail =>
    have hthere : f.state ≠ none := by
      rw [← h.state, stateAt_eq before]
      exact Option.some_ne_none _
    have hstate : (n.act x).stateAt c r = none := stateAt_eq_none_iff.mpr after
    rw [hstate, List.append_nil]
    refine ⟨hfresh, hstate.trans ?_, ?_, mail.orderly horderly (Or.inl rfl)⟩
    · cases f <;> rfl
    · rw [mail.statuses_eq, htold, Fate.tidings_parted hthere, List.append_assoc]
      rfl
  | closed act => exact absurd act hx

/-- What an end has heard is a first part of what it is told of a link with some fate. -/
def Partial (r : Peer) (base heard : List TransportEvent) (f : Fate) : Prop :=
  ∃ rest, statuses (heard ++ rest) = base ++ f.tidings r ∧ Orderly r (heard ++ rest)

/-- An end whose endpoint is there, or was closed before. -/
def Stands (n : Network) (c : Address) (r : Peer) (base heard : List TransportEvent) (f : Fate) : Prop :=
  n.Told c r base heard f ∨ (n.Silent c r ∧ f.state = none ∧ Partial r base heard f)

theorem Told.close (h : n.Told c r base heard f) (hn : n.Sound) :
    (n.act (.close c)).Stands c r base heard (f.after none "endpoint closed") := by
  obtain ⟨hwire, hmail⟩ := hn.closed c r
  refine Or.inr ⟨⟨?_, hwire, hmail⟩, ?_, ?_⟩
  · exact Nat.lt_of_lt_of_le h.fresh (continues_act n (.close c)).nextPeer
  · cases f <;> rfl
  · by_cases hthere : f.state = none
    · rw [← hthere, Fate.after_state]
      exact ⟨n.mail c r, h.told, h.orderly⟩
    · -- Nobody is there to be told that the link was taken down.
      refine ⟨n.mail c r ++ [.disconnected r "endpoint closed"], ?_, ?_⟩
      · rw [← List.append_assoc, statuses_append, h.told, Fate.tidings_parted hthere, List.append_assoc]
        rfl
      · rw [← List.append_assoc]
        have hbefore : Orderly r ((heard ++ n.mail c r) ++ []) := (List.append_nil _).symm ▸ h.orderly
        exact hbefore.put (Or.inl rfl)

theorem Stands.act (h : n.Stands c r base heard f) (hn : n.Sound) (x : Act) :
    (n.act x).Stands c r base (heard ++ (n.polledBy x c).filter (·.peer = r))
      (f.after ((n.act x).stateAt c r) x.reason) := by
  rcases h with htold | ⟨hsilent, hstate, hpartial⟩
  · by_cases hx : x = .close c
    · subst hx
      have hstate : (n.act (.close c)).stateAt c r = none := stateAt_eq_none_iff.mpr (hn.isolated (x := .close c) rfl r)
      have hnone : n.polledBy (.close c) c = [] := rfl
      rw [hstate, hnone, List.filter_nil, List.append_nil]
      exact htold.close hn
    · exact Or.inl (htold.act hn hx)
  · obtain ⟨hsilent', hnone⟩ := hsilent.act hn x
    have hfate : f.after ((n.act x).stateAt c r) x.reason = f := by
      rw [stateAt_eq_none_iff.mpr hsilent'.wire, ← hstate, Fate.after_state]
    rw [hnone, List.append_nil, hfate]
    exact Or.inr ⟨hsilent', hstate, hpartial⟩

theorem Told.run (h : n.Told c r base heard f) (hn : n.Sound) (hopen : .close c ∉ acts) :
    (n.run acts).Told c r base (heard ++ n.hears c r acts) (n.fate c r f acts) := by
  induction acts generalizing n heard f with
  | nil => exact (List.append_nil heard).symm ▸ h
  | cons x xs ih =>
    obtain ⟨hx, hxs⟩ := not_or.mp (mt List.mem_cons.mpr hopen)
    rw [hears_cons, ← List.append_assoc]
    exact ih (h.act hn (Ne.symm hx)) (hn.act x) hxs

theorem Stands.run (h : n.Stands c r base heard f) (hn : n.Sound) (acts : List Act) :
    (n.run acts).Stands c r base (heard ++ n.hears c r acts) (n.fate c r f acts) := by
  induction acts generalizing n heard f with
  | nil => exact (List.append_nil heard).symm ▸ h
  | cons x xs ih =>
    rw [hears_cons, ← List.append_assoc]
    exact ih (h.act hn x) (hn.act x)

theorem Stands.state (h : n.Stands c r base heard f) : n.stateAt c r = f.state := by
  rcases h with htold | ⟨hsilent, hstate, -⟩
  · exact htold.state
  · rw [hstate, stateAt_eq_none_iff, hsilent.wire]

theorem Stands.partial (h : n.Stands c r base heard f) : Partial r base heard f := by
  rcases h with htold | ⟨-, -, hpartial⟩
  · exact ⟨_, htold.told, htold.orderly⟩
  · exact hpartial

/-! ### The two ends of a link -/

theorem run_append (n : Network) (xs ys : List Act) : n.run (xs ++ ys) = (n.run xs).run ys := List.foldl_append

theorem Sound.run (h : n.Sound) (acts : List Act) : (n.run acts).Sound := (run_acted n acts).sound h

theorem fate_append (n : Network) (a : Address) (p : Peer) (f : Fate) (xs ys : List Act) :
    n.fate a p f (xs ++ ys) = (n.run xs).fate a p (n.fate a p f xs) ys := by
  induction xs generalizing n f with
  | nil => rfl
  | cons x xs ih => exact ih ..

/-- The other end of a link stays in the same state, also when the link is gone. -/
theorem Sound.stateAt_far (h : n.Sound) (hw : n.wire? a p = some ⟨b, q, st⟩) (hacted : Acted (fun _ => True) n n') :
    n'.stateAt b q = n'.stateAt a p := by
  have hback := h.paired hw
  have hsound := hacted.sound h
  cases hnear : n'.wire? a p with
  | some w =>
    obtain ⟨st', hw'⟩ := hacted.continues.leads (b := w.remote) (q := w.remotePeer) hnear (h.fresh hw)
    obtain ⟨rfl, rfl, -⟩ := wire_inj hw hw'
    rw [stateAt_eq hnear, stateAt_eq (hsound.paired hnear)]
  | none =>
    rw [stateAt_eq_none_iff.mpr hnear, stateAt_eq_none_iff]
    cases hfar : n'.wire? b q with
    | none => rfl
    | some w =>
      obtain ⟨st', hw'⟩ := hacted.continues.leads (b := w.remote) (q := w.remotePeer) hfar (h.fresh hback)
      obtain ⟨rfl, rfl, -⟩ := wire_inj hback hw'
      exact (nomatch hnear.symm.trans (hsound.paired hfar))

theorem Sound.fate_far (h : n.Sound) (hw : n.wire? a p = some ⟨b, q, st⟩) (hacted : Acted (fun _ => True) n n')
    (f : Fate) (acts : List Act) : n'.fate b q f acts = n'.fate a p f acts := by
  induction acts generalizing n' f with
  | nil => rfl
  | cons x xs ih =>
    have hacted' : Acted (fun _ => True) n (n'.act x) := hacted.act trivial
    rw [fate, fate, h.stateAt_far hw hacted']
    exact ih hacted' _

/-- A link has been approved if it was connected at some moment. -/
theorem Stands.approved_iff (h : n.Stands a p base heard .asked) (hn : n.Sound) (acts : List Act) :
    (n.fate a p .asked acts).approved = true ↔
      ∃ earlier, earlier <+: acts ∧ (n.run earlier).stateAt a p = some .connected := by
  constructor
  · have hgeneral : ∀ (acts : List Act) (n : Network) (f : Fate), (n.fate a p f acts).approved = true →
        f.approved = true ∨ ∃ earlier, earlier <+: acts ∧ (n.run earlier).stateAt a p = some .connected := by
      intro acts
      induction acts with
      | nil => exact fun n f happroved => Or.inl happroved
      | cons x xs ih =>
        intro n f happroved
        rcases ih (n.act x) _ happroved with hnow | ⟨earlier, hearlier, hstate⟩
        · refine (Fate.approved_of_after hnow).imp_right fun hstate => ⟨[x], ?_, hstate⟩
          exact List.prefix_cons_iff.mpr (Or.inr ⟨[], rfl, List.nil_prefix⟩)
        · exact Or.inr ⟨x :: earlier, (List.prefix_cons_inj x).mpr hearlier, hstate⟩
    exact fun happroved => (hgeneral acts n .asked happroved).resolve_left Bool.false_ne_true
  · rintro ⟨earlier, ⟨later, rfl⟩, hstate⟩
    have hkept : ∀ (acts : List Act) (n : Network) {f : Fate}, f.approved = true →
        (n.fate a p f acts).approved = true := by
      intro acts
      induction acts with
      | nil => exact fun n f happroved => happroved
      | cons x xs ih => exact fun n f happroved => ih (n.act x) (Fate.approved_after happroved _ _)
    rw [fate_append]
    refine hkept later _ ?_
    have hfate := (h.run hn earlier).state.symm.trans hstate
    generalize n.fate a p .asked earlier = f at hfate ⊢
    cases f with
    | asked => cases hfate
    | joined => rfl
    | parted => cases hfate

/-- A link that is gone was taken down by an act, with its reason. -/
theorem Stands.parted (h : n.Stands a p base heard .asked) (hn : n.Sound) {approved : Bool} {reason : String}
    (hfate : n.fate a p .asked acts = .parted approved reason) : ∃ earlier x later, acts = earlier ++ x :: later ∧
      (n.run earlier).stateAt a p ≠ none ∧ ((n.run earlier).act x).stateAt a p = none ∧ x.reason = reason := by
  have hgeneral : ∀ (acts : List Act) {n : Network} {f : Fate} {heard : List TransportEvent},
      n.Stands a p base heard f → n.Sound → f ≠ .parted approved reason →
      n.fate a p f acts = .parted approved reason → ∃ earlier x later, acts = earlier ++ x :: later ∧
        (n.run earlier).stateAt a p ≠ none ∧ ((n.run earlier).act x).stateAt a p = none ∧ x.reason = reason := by
    intro acts
    induction acts with
    | nil => exact fun _ _ hne heq => absurd heq hne
    | cons x xs ih =>
      intro n f heard hstands hn hne heq
      by_cases hnow : f.after ((n.act x).stateAt a p) x.reason = .parted approved reason
      · obtain ⟨hthere, hgone, hreason⟩ := (Fate.parted_of_after hnow).resolve_left hne
        exact ⟨[], x, xs, rfl, hstands.state ▸ hthere, hgone, hreason.symm⟩
      · obtain ⟨earlier, y, later, rfl, hrest⟩ := ih (hstands.act hn x) (hn.act x) hnow heq
        exact ⟨x :: earlier, y, later, rfl, hrest⟩
  exact hgeneral acts h hn Fate.noConfusion hfate

/-! ### Links of a run -/

theorem peer_of_polledBy (h : n.Sound) {e : TransportEvent} (he : e ∈ n.polledBy x c) : e.peer.val < n.nextPeer := by
  unfold polledBy at he
  split at he
  · rcases hpoll : n.poll c with ⟨_ | e', n'⟩
    · rw [hpoll] at he
      cases he
    · rw [hpoll] at he
      obtain rfl := List.mem_singleton.mp he
      obtain ⟨y, ys, hinbox, rfl, -⟩ := poll_eq hpoll
      exact h.mailed (hinbox ▸ List.mem_cons_self)
  · cases he

theorem polledBy_of_new (h : n.Sound) (hr : n.nextPeer ≤ r.val) (x : Act) (c : Address) :
    (n.polledBy x c).filter (·.peer = r) = [] := by
  refine List.filter_eq_nil_iff.mpr fun e he hpeer => ?_
  have hlt := peer_of_polledBy h he
  rw [of_decide_eq_true hpeer] at hlt
  exact absurd hlt (Nat.not_lt.mpr hr)

/-- Nothing is heard of a number before it is given out. -/
theorem Sound.hears_of_new (h : n.Sound) (hr : (n.run acts).nextPeer ≤ r.val) (c : Address) :
    n.hears c r acts = [] := by
  induction acts generalizing n with
  | nil => rfl
  | cons x xs ih =>
    have hnext : n.nextPeer ≤ (n.run (x :: xs)).nextPeer := (run_acted n (x :: xs)).continues.nextPeer
    rw [hears_cons, polledBy_of_new h (Nat.le_trans hnext hr), List.nil_append]
    exact ih (h.act x) hr

/-- A link is asked for with a listener, from another endpoint. -/
structure Opens (n : Network) (a b : Address) : Prop where
  bound : n.isBound a = true
  listens : n.listens b = true
  apart : b ≠ a

/-- The numbers that the two ends of the next link get. -/
def nearNumber (n : Network) : Peer := ⟨n.nextPeer⟩

def farNumber (n : Network) : Peer := ⟨n.nextPeer + 1⟩

theorem Opens.act_eq (h : n.Opens a b) :
    n.act (.connect a b) = (n.lay a b).post b n.clock (.approvalRequest n.farNumber) := by
  rw [Network.act, if_pos h.bound, connect_eq_lay h.listens h.apart]
  rfl

theorem Opens.wire (h : n.Opens a b) :
    (n.act (.connect a b)).wire? a n.nearNumber = some ⟨b, n.farNumber, .awaitingApproval⟩ := by
  rw [h.act_eq, wire?_post, wire?_lay h.bound (isBound_of_listens h.listens), if_neg fun heq => h.apart heq.1,
    if_pos ⟨rfl, rfl⟩]
  rfl

theorem Opens.told (h : n.Opens a b) (hn : n.Sound) : (n.act (.connect a b)).Told a n.nearNumber [] [] .asked ∧
    (n.act (.connect a b)).Told b n.farNumber [.approvalRequest n.farNumber] [] .asked := by
  have hsound := hn.act (.connect a b)
  have hlaid := hn.lay h.bound (isBound_of_listens h.listens) h.apart
  have hnone : ∀ c r, n.nextPeer ≤ r.val → (n.lay a b).mail c r = [] := fun c r hr =>
    (mail_congr (inbox_lay n a b c) r).trans (hn.mail_eq_nil hr c)
  have hnear : (n.act (.connect a b)).mail a n.nearNumber = [] := by
    rw [h.act_eq, mail_post_of_ne fun heq => h.apart (Prod.mk.inj heq).1]
    exact hnone a n.nearNumber (Nat.le_refl _)
  have hfar : (n.act (.connect a b)).mail b n.farNumber = [.approvalRequest n.farNumber] := by
    have hbound : (n.lay a b).isBound b = true := (isBound_lay n a b b).trans (isBound_of_listens h.listens)
    obtain ⟨us, vs, hold, hnew, -⟩ :=
      hlaid.inserts_post hbound (Nat.le_refl _) (.approvalRequest n.farNumber)
    obtain ⟨rfl, rfl⟩ := List.append_eq_nil_iff.mp (hold.symm.trans (hnone b n.farNumber (Nat.le_succ _)))
    rw [h.act_eq]
    exact hnew
  have hback := hsound.paired h.wire
  refine ⟨⟨hsound.fresh h.wire, stateAt_eq h.wire, ?_, ?_⟩, ⟨hsound.fresh hback, stateAt_eq hback, ?_, ?_⟩⟩
  · rw [hnear]
    rfl
  · rw [hnear]
    trivial
  · rw [hfar]
    rfl
  · rw [hfar]
    exact Or.inr ⟨rfl, trivial⟩

/-- An end with a number that an act has given out is one of the two of a link that was asked for, or nothing comes to
    it. -/
theorem Sound.silent_of_new (h : n.Sound) (hr : n.nextPeer ≤ r.val) (hnew : r.val < (n.act x).nextPeer) (c : Address) :
    (n.act x).Silent c r ∨ ∃ a b, x = .connect a b ∧ n.Opens a b ∧
      ((c = a ∧ r = n.nearNumber) ∨ (c = b ∧ r = n.farNumber)) := by
  have hgiven : (n.act x).nextPeer ≠ n.nextPeer := fun heq => absurd hr (Nat.not_le.mpr (heq ▸ hnew))
  by_cases hconnect : ∃ a b, x = .connect a b
  · obtain ⟨a, b, rfl⟩ := hconnect
    by_cases hopens : n.Opens a b
    · by_cases hend : (c = a ∧ r = n.nearNumber) ∨ (c = b ∧ r = n.farNumber)
      · exact Or.inr ⟨a, b, rfl, hopens, hend⟩
      · obtain ⟨hnear, hfar⟩ := not_or.mp hend
        refine Or.inl ⟨hnew, ?_, ?_⟩
        · rw [hopens.act_eq, wire?_post, wire?_lay hopens.bound (isBound_of_listens hopens.listens),
            if_neg fun heq => hfar ⟨heq.1.symm, heq.2.symm⟩, if_neg fun heq => hnear ⟨heq.1.symm, heq.2.symm⟩]
          exact h.wire?_eq_none hr c
        · rw [hopens.act_eq, mail_post_of_ne fun heq => hfar ((Prod.mk.inj heq).imp Eq.symm Eq.symm)]
          exact (mail_congr (inbox_lay n a b c) r).trans (h.mail_eq_nil hr c)
    · refine absurd ?_ hgiven
      rw [Network.act]
      split
      · rename_i hbound
        rcases n.connect_cases a b with ⟨e, heq⟩ | ⟨hlistens, hne⟩
        · rw [heq]
        · exact absurd ⟨hbound, hlistens, hne⟩ hopens
      · rfl
  · exact absurd (nextPeer_act n fun a b heq => hconnect ⟨a, b, heq⟩) hgiven

/-- What an end hears of a link with some fate: `base`, and then the tidings of the fate. -/
structure Hears (n : Network) (c : Address) (r : Peer) (base : List TransportEvent) (f : Fate) (acts : List Act) :
    Prop where
  order : statuses (n.hears c r acts) <+: base ++ f.tidings r
  orderly : Orderly r (n.hears c r acts)
  /-- What it has not heard yet is on its way, as long as the endpoint is not closed. -/
  whole : .close c ∉ acts → statuses (n.hears c r acts ++ (n.run acts).mail c r) = base ++ f.tidings r
  /-- When none is due at the endpoint, it has heard all. -/
  drained : .close c ∉ acts → ((n.run acts).poll c).1 = none → statuses (n.hears c r acts) = base ++ f.tidings r

theorem Told.hears (h : n.Told c r base [] f) (hn : n.Sound) (acts : List Act) :
    n.Hears c r base (n.fate c r f acts) acts := by
  obtain ⟨rest, htold, horderly⟩ := (Stands.run (Or.inl h) hn acts).partial
  rw [List.nil_append] at htold horderly
  have hwhole : .close c ∉ acts →
      statuses (n.hears c r acts ++ (n.run acts).mail c r) = base ++ (n.fate c r f acts).tidings r :=
    fun hopen => (h.run hn hopen).told
  refine ⟨?_, horderly.of_append, hwhole, fun hopen hpoll => ?_⟩
  · rw [← htold, statuses_append]
    exact List.prefix_append _ _
  · have hdrained : (n.run acts).Drained c := (hn.run acts).drained_of_poll (Prod.ext hpoll rfl)
    -- What tells of a link is due at once, so none of it is left.
    have hleft : statuses ((n.run acts).mail c r) = [] := by
      refine List.filter_eq_nil_iff.mpr fun e he hstatus => ?_
      obtain ⟨-, y, hy, rfl⟩ := mem_mailFor.mp he
      have hprompt := (hn.run acts).prompt hy (by simpa [TransportEvent.isPacket] using hstatus)
      exact absurd (hdrained y hy) (Nat.not_lt.mpr hprompt)
    rw [← hwhole hopen, statuses_append, hleft, List.append_nil]

/-- Whatever is heard of a number is heard at an end of a link that was asked for, after that. -/
theorem Sound.hears_eq_nil_or (h : n.Sound) (hr : n.nextPeer ≤ r.val) (c : Address) (acts : List Act) :
    n.hears c r acts = [] ∨ ∃ before a b later, acts = before ++ .connect a b :: later ∧ (n.run before).Opens a b ∧
      ((c = a ∧ r = (n.run before).nearNumber) ∨ (c = b ∧ r = (n.run before).farNumber)) := by
  induction acts generalizing n with
  | nil => exact Or.inl rfl
  | cons x xs ih =>
    rw [hears_cons, polledBy_of_new h hr, List.nil_append]
    by_cases hnew : r.val < (n.act x).nextPeer
    · rcases h.silent_of_new hr hnew c with hsilent | ⟨a, b, rfl, hopens, hend⟩
      · exact Or.inl (hsilent.hears_eq_nil (h.act x) xs)
      · exact Or.inr ⟨[], a, b, xs, rfl, hopens, hend⟩
    · refine (ih (h.act x) (Nat.not_lt.mp hnew)).imp_right ?_
      rintro ⟨before, a, b, later, rfl, hopens, hend⟩
      exact ⟨x :: before, a, b, later, rfl, hopens, hend⟩

/-- Whatever is done on a network: what is heard of a peer at an address is heard at an end of a link that was asked for
    before. Both ends hear of the link what its one fate is, the listener after the request, in this order; so if it is
    taken down each end whose endpoint is not closed is told so once, with the reason of the act. They hear that it is
    connected only if at some moment it was, and no packet before that. -/
theorem run_tidings (luck : Nat → Luck) (acts : List Act) :
    (∀ c r, (create luck).hears c r acts = [] ∨ ∃ before a b later, acts = before ++ .connect a b :: later ∧
      let n := (create luck).run before
      n.Opens a b ∧ ((c = a ∧ r = n.nearNumber) ∨ (c = b ∧ r = n.farNumber))) ∧
    ∀ before a b later, acts = before ++ .connect a b :: later → let n := (create luck).run before
      n.Opens a b → let n' := n.act (.connect a b); let p := n.nearNumber; let q := n.farNumber
      let f := n'.fate a p .asked later
      ((create luck).hears a p acts = n'.hears a p later ∧ n'.Hears a p [] f later) ∧
      ((create luck).hears b q acts = n'.hears b q later ∧ n'.Hears b q [.approvalRequest q] f later) ∧
      (n'.run later).stateAt a p = f.state ∧ (n'.run later).stateAt b q = f.state ∧
      (.connected p "" ∈ f.tidings p ↔ ∃ earlier, earlier <+: later ∧ (n'.run earlier).stateAt a p = some .connected) ∧
      ∀ approved reason, f = .parted approved reason → ∃ earlier x rest, later = earlier ++ x :: rest ∧
        (n'.run earlier).stateAt a p ≠ none ∧ ((n'.run earlier).act x).stateAt a p = none ∧ x.reason = reason := by
  have hcreated := sound_create luck
  refine ⟨fun c r => ?_, fun before a b later hacts => ?_⟩
  · rcases Nat.lt_or_ge r.val (create luck).nextPeer with hold | hnew
    · -- No link has a number that was there from the first.
      have hsilent : (create luck).Silent c r := ⟨hold, rfl, rfl⟩
      exact Or.inl (hsilent.hears_eq_nil hcreated acts)
    · exact hcreated.hears_eq_nil_or hnew c acts
  · intro n hopens n' p q f
    have hn : n.Sound := hcreated.run before
    have hn' : n'.Sound := hn.act _
    obtain ⟨hnear, hfar⟩ := hopens.told hn
    have hwire : n'.wire? a p = some ⟨b, q, .awaitingApproval⟩ := hopens.wire
    have hsame : n'.fate b q .asked later = f := hn'.fate_far hwire .refl .asked later
    have hlater : ∀ {c r}, n.nextPeer ≤ r.val → (create luck).hears c r acts = n'.hears c r later := by
      intro c r hr
      rw [hacts, hears_append, hcreated.hears_of_new hr, List.nil_append, hears_cons, polledBy_of_new hn hr,
        List.nil_append]
    have hstands : n'.Stands a p [] [] .asked := Or.inl hnear
    have hstate : (n'.run later).stateAt a p = f.state := (hstands.run hn' later).state
    refine ⟨⟨hlater (Nat.le_refl _), hnear.hears hn' later⟩, ⟨hlater (Nat.le_succ _), hsame ▸ hfar.hears hn' later⟩,
      hstate, ?_, (f.mem_tidings_iff p).trans (hstands.approved_iff hn' later),
      fun approved reason hfate => hstands.parted hn' hfate⟩
    exact (hn'.stateAt_far hwire (run_acted n' later)).trans hstate

/-- A link that is granted, and then taken down by the end that has asked for it. -/
theorem run_tidings_granted :
    let s := loopback 1
    let t := loopback 2
    let later : List Act := [.approve s ⟨2⟩, .disconnect t ⟨1⟩ "bye", .poll s, .poll s, .poll s, .poll t, .poll t]
    let acts : List Act := [.bind s, .start s, .bind t] ++ .connect t s :: later
    statuses (calm.hears s ⟨2⟩ acts) = [.approvalRequest ⟨2⟩, .connected ⟨2⟩ "", .disconnected ⟨2⟩ "bye"] ∧
      statuses (calm.hears t ⟨1⟩ acts) = [.connected ⟨1⟩ "", .disconnected ⟨1⟩ "bye"] := by
  intro s t later acts
  obtain ⟨-, hlinks⟩ := run_tidings (fun _ => ⟨0, 0, 0⟩) acts
  have hopens : (calm.run [.bind s, .start s, .bind t]).Opens t s :=
    ⟨by decide +kernel, by decide +kernel, by decide +kernel⟩
  obtain ⟨⟨hnear, htold⟩, ⟨hfar, hheard⟩, -⟩ := hlinks _ t s later rfl hopens
  have hfate : ((calm.run [.bind s, .start s, .bind t]).act (.connect t s)).fate t ⟨1⟩ .asked later =
      .parted true "bye" := by decide +kernel
  constructor
  · exact (congrArg statuses hfar).trans ((hheard.drained (by decide +kernel) (by decide +kernel)).trans
      (congrArg (fun f : Fate => [.approvalRequest ⟨2⟩] ++ f.tidings ⟨2⟩) hfate))
  · exact (congrArg statuses hnear).trans ((htold.drained (by decide +kernel) (by decide +kernel)).trans
      (congrArg (fun f : Fate => [] ++ f.tidings ⟨1⟩) hfate))

/-- A listener hangs up on a link that it has not granted. The end that has asked for the link hears of that alone, and
    never that it was connected. -/
theorem hears_refused :
    let s := loopback 1
    let t := loopback 2
    let acts : List Act := [.bind s, .start s, .bind t, .connect t s, .disconnect s ⟨2⟩ "no", .poll t]
    statuses (calm.hears t ⟨1⟩ acts) = [.disconnected ⟨1⟩ "no"] ∧
      ∀ word reason, ¬ statuses (calm.hears t ⟨1⟩ acts) <+: [.connected ⟨1⟩ word, .disconnected ⟨1⟩ reason] := by
  have hheard : statuses (calm.hears (loopback 2) ⟨1⟩ [.bind (loopback 1), .start (loopback 1), .bind (loopback 2),
      .connect (loopback 2) (loopback 1), .disconnect (loopback 1) ⟨2⟩ "no", .poll (loopback 2)]) =
      [.disconnected ⟨1⟩ "no"] := by
    decide +kernel
  refine ⟨hheard, fun word reason hprefix => ?_⟩
  rw [hheard, List.cons_prefix_cons] at hprefix
  exact TransportEvent.noConfusion hprefix.1

end Network
end StateSync
