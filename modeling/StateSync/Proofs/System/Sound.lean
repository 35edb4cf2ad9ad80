import StateSync.Proofs.Manager.Seat
import StateSync.Proofs.StringTable
import StateSync.Proofs.System.Basic
import StateSync.Proofs.System.Talk
import StateSync.Proofs.Transport.Exchange

/-! What holds of a system between two moves (`Sound`): each link stands between the server and a client that talk to
    each other across it, and a connection whose link is gone will be told so. A party that acts at one end of a link,
    links that are taken down, and transports that are exchanged by an idle party keep it. -/

namespace StateSync
open Network (Quiet Alike Cut Deals AtLink)

variable {κ δ : Type}

theorem Network.IsIdle.notes {n : Network} (h : n.IsIdle) (a : Address) (p : Peer) : n.notes a p = [] := by
  rw [Network.notes, Network.inbox]
  cases he : n.endpoint? a with
  | none => rfl
  | some e => rw [Option.map_some, h a e he]; rfl

/-- What holds of the manager of a party by itself. -/
structure Party.Fits (x : Party κ) (m : Manager Address δ) : Prop where
  sound : m.Sound
  side : m.side = x.side
  nodup : m.transports.Nodup
  table : m.isServer = true → m.strings.Sound
  /-- A client has one connection at the most. -/
  single : m.isServer = false → ∀ {a p b q c c'}, m.at? a p = some c → m.at? b q = some c' → a = b ∧ p = q

theorem Party.Fits.isServer {x : Party κ} {m : Manager Address δ} (h : x.Fits m) : m.isServer = true ↔ x = .server := by
  cases x with
  | server => simp [Manager.isServer, h.side, Party.side]
  | client k => simp [Manager.isServer, h.side, Party.side]

namespace System

/-- The server, at the first end, and a client, at the second, talk across a link. -/
def Joins (s : System κ δ) (a : Address) (p : Peer) (b : Address) (q : Peer) (st : LinkState) : Prop :=
  ∃ k, a ∈ (s.manager .server).transports ∧ b ∈ (s.manager (.client k)).transports ∧
    Talk (s.manager .server).strings (s.manager (.client k)).strings st ((s.manager .server).at? a p)
      ((s.manager (.client k)).at? b q) (s.net.notes a p) (s.net.notes b q)

structure Sound (s : System κ δ) : Prop where
  net : s.net.Sound
  fits : ∀ x : Party κ, x.Fits (s.manager x)
  bound : ∀ {x a}, a ∈ (s.manager x).transports → s.net.isBound a = true
  apart : ∀ {x y a}, a ∈ (s.manager x).transports → a ∈ (s.manager y).transports → x = y
  listens : ∀ {a}, s.net.listens a = true → a ∈ (s.manager .server).transports
  lost : ∀ {x a p c}, (s.manager x).at? a p = some c → s.net.wire? a p = none → .down ∈ s.net.notes a p
  linked : ∀ {a p b q st}, s.net.wire? a p = some ⟨b, q, st⟩ → s.Joins a p b q st ∨ s.Joins b q a p st

variable {s s' : System κ δ} {x y : Party κ} {k : κ} {m m' : Manager Address δ} {n : Network} {a b : Address}
  {p q : Peer} {st : LinkState}

theorem fits_create (x : Party κ) (settings : Settings) :
    x.Fits (Manager.create x.side settings : Manager Address δ) where
  sound := Manager.sound_create _ _
  side := rfl
  nodup := List.nodup_nil
  table _ := StringTable.sound_create
  single _ {a p b q c c'} hc := by
    rw [Manager.at?_of_no_transports rfl] at hc
    cases hc

/-! ### The two sides of a link -/

theorem Sound.side_server (h : s.Sound) : (s.manager .server).isServer = true := (h.fits _).isServer.mpr rfl

theorem Sound.side_client (h : s.Sound) (k : κ) : (s.manager (.client k)).isServer = false := by
  refine eq_false_of_ne_true fun hs => ?_
  cases (h.fits _).isServer.mp hs

theorem Sound.joins_server (h : s.Sound) (ha : a ∈ (s.manager .server).transports)
    (hw : s.net.wire? a p = some ⟨b, q, st⟩) : s.Joins a p b q st := by
  refine (h.linked hw).resolve_right fun hj => ?_
  obtain ⟨k, -, ha', -⟩ := hj
  cases h.apart ha ha'

theorem Sound.joins_client (h : s.Sound) (ha : a ∈ (s.manager (.client k)).transports)
    (hw : s.net.wire? a p = some ⟨b, q, st⟩) : b ∈ (s.manager .server).transports ∧
      Talk (s.manager .server).strings (s.manager (.client k)).strings st ((s.manager .server).at? b q)
        ((s.manager (.client k)).at? a p) (s.net.notes b q) (s.net.notes a p) := by
  rcases h.linked hw with ⟨k', ha', -⟩ | ⟨k', hb, ha', ht⟩
  · cases h.apart ha ha'
  · obtain rfl := Party.client.inj (h.apart ha ha')
    exact ⟨hb, ht⟩

/-! ### Talks that go on -/

/-- A talk goes on while neither end notices a difference. -/
theorem Joins.congr (h : s.Joins a p b q st)
    (hserver : (s'.manager .server).transports = (s.manager .server).transports ∧
      (s'.manager .server).at? a p = (s.manager .server).at? a p)
    (htable : (s.manager .server).strings.locked = true → (s'.manager .server).strings = (s.manager .server).strings)
    (hclient : ∀ {k c}, b ∈ (s.manager (.client k)).transports → (s.manager (.client k)).at? b q = some c →
      b ∈ (s'.manager (.client k)).transports ∧ (s'.manager (.client k)).at? b q = (s.manager (.client k)).at? b q ∧
      (s'.manager (.client k)).strings = (s.manager (.client k)).strings)
    (hnear : s'.net.notes a p = s.net.notes a p) (hfar : s'.net.notes b q = s.net.notes b q) : s'.Joins a p b q st := by
  obtain ⟨k, ha, hb, ht⟩ := h
  obtain ⟨c, hc⟩ := ht.client_some
  obtain ⟨hb', hat, hown⟩ := hclient hb hc
  refine ⟨k, hserver.1 ▸ ha, hb', ?_⟩
  rw [hserver.2, hat, hown, hnear, hfar]
  exact ht.retable htable

/-- A talk goes on while its two managers do nothing. -/
theorem Joins.kept (h : s.Joins a p b q st)
    (hserver : a ∈ (s.manager .server).transports → s'.manager .server = s.manager .server)
    (hclient : ∀ {k c}, b ∈ (s.manager (.client k)).transports → (s.manager (.client k)).at? b q = some c →
      s'.manager (.client k) = s.manager (.client k))
    (hnear : s'.net.notes a p = s.net.notes a p) (hfar : s'.net.notes b q = s.net.notes b q) : s'.Joins a p b q st := by
  obtain ⟨-, ha, -⟩ := id h
  have hserver' := hserver ha
  refine h.congr ?_ (fun _ => ?_) (fun {k c} hb hc => ?_) hnear hfar
  · rw [hserver']
    exact ⟨rfl, rfl⟩
  · rw [hserver']
  · rw [hclient hb hc]
    exact ⟨hb, rfl, rfl⟩

/-- Every party keeps its transports, and they stay in place. -/
structure Stays (s s' : System κ δ) : Prop where
  transports : ∀ y, (s'.manager y).transports = (s.manager y).transports
  isBound : ∀ a, s'.net.isBound a = s.net.isBound a
  listens : ∀ a, s'.net.listens a = s.net.listens a

theorem Sound.of_stays (h : s.Sound) (hs : Stays s s') (net : s'.net.Sound)
    (fits : ∀ x : Party κ, x.Fits (s'.manager x))
    (lost : ∀ {x a p c}, (s'.manager x).at? a p = some c → s'.net.wire? a p = none → .down ∈ s'.net.notes a p)
    (linked : ∀ {a p b q st}, s'.net.wire? a p = some ⟨b, q, st⟩ → s'.Joins a p b q st ∨ s'.Joins b q a p st) :
    s'.Sound where
  net := net
  fits := fits
  bound ha := by
    rw [hs.transports] at ha
    rw [hs.isBound]
    exact h.bound ha
  apart ha ha' := by
    rw [hs.transports] at ha ha'
    exact h.apart ha ha'
  listens hl := by
    rw [hs.listens] at hl
    rw [hs.transports]
    exact h.listens hl
  lost := lost
  linked := linked

/-! ### What a manager does at one end of a link -/

/-- A manager changes at one peer only. A client takes up no connection, and changes only if it has one there. -/
structure Acts (m m' : Manager Address δ) (a : Address) (p : Peer) : Prop where
  sound : m'.Sound
  side : m'.side = m.side
  transports : m'.transports = m.transports
  at? : ∀ {b q}, ¬ (b = a ∧ q = p) → m'.at? b q = m.at? b q
  table : m.isServer = true → m'.strings = m.strings ∨ m'.strings = m.strings.lock
  client : m.isServer = false → m' = m ∨ ∃ c, m.at? a p = some c

theorem Acts.refl (h : m.Sound) (a : Address) (p : Peer) : Acts m m a p :=
  ⟨h, rfl, rfl, fun _ => rfl, fun _ => Or.inl rfl, fun _ => Or.inl rfl⟩

theorem Acts.isServer (h : Acts m m' a p) : m'.isServer = m.isServer := by
  rw [Manager.isServer, h.side, Manager.isServer]

/-- A connection that a client has after was there before. -/
theorem Acts.seat (h : Acts m m' a p) (hs : m.isServer = false) {c : Connection} (hc : m'.at? b q = some c) :
    ∃ c₀, m.at? b q = some c₀ := by
  rcases h.client hs with rfl | hat
  · exact ⟨c, hc⟩
  · by_cases hbq : b = a ∧ q = p
    · obtain ⟨rfl, rfl⟩ := hbq
      exact hat
    · exact ⟨c, h.at? hbq ▸ hc⟩

theorem Acts.fits (h : Acts m m' a p) (hm : x.Fits m) : x.Fits m' where
  sound := h.sound
  side := h.side.trans hm.side
  nodup := h.transports ▸ hm.nodup
  table hs := by
    rw [h.isServer] at hs
    rcases h.table hs with heq | heq
    · rw [heq]
      exact hm.table hs
    · rw [heq]
      exact (hm.table hs).lock
  single hs {b q b' q' c c'} hc hc' := by
    rw [h.isServer] at hs
    obtain ⟨c₀, hc₀⟩ := h.seat hs hc
    obtain ⟨c₀', hc₀'⟩ := h.seat hs hc'
    exact hm.single hs hc₀ hc₀'

theorem Acts.locked (h : Acts m m' a p) (hs : m.isServer = true) (hl : m.strings.locked = true) :
    m'.strings = m.strings := by
  rcases h.table hs with heq | heq
  · exact heq
  · rw [heq, StringTable.lock_of_locked hl]

/-! ### Links that are taken down -/

theorem Sound.cut (h : s.Sound) (hcut : Cut s.net n) (hn : n.Sound)
    (hbound : ∀ {x a}, a ∈ (s.manager x).transports → n.isBound a = true) : Sound { s with net := n } where
  net := hn
  fits := h.fits
  bound := hbound
  apart := h.apart
  listens hl := h.listens (hcut.listens hl)
  lost {x a p c} hat hnone := by
    have hb := hbound (Manager.mem_transports_of_at? hat)
    cases hw : s.net.wire? a p with
    | none => exact hcut.down hb (h.lost hat hw)
    | some w => exact hcut.lost hb hw hnone
  linked {a p b q st} hw := by
    obtain ⟨hw₀, hnear⟩ := hcut.kept hw
    obtain ⟨-, hfar⟩ := hcut.kept (hn.paired hw)
    rcases h.linked hw₀ with hj | hj
    · exact Or.inl (hj.kept (fun _ => rfl) (fun _ _ => rfl) hnear hfar)
    · exact Or.inr (hj.kept (fun _ => rfl) (fun _ _ => rfl) hfar hnear)

variable [DecidableEq κ]

theorem fits_put (h : s.Sound) (hm : x.Fits m) : ∀ y : Party κ, y.Fits ((s.put x (m, n)).manager y) :=
  forall_put hm fun y _ => h.fits y

theorem transports_put (h : m.transports = (s.manager x).transports) :
    ∀ y, ((s.put x (m, n)).manager y).transports = (s.manager y).transports :=
  forall_put (P := fun y m => m.transports = (s.manager y).transports) h fun _ _ => rfl

theorem joins_put_server (ha : a ∈ m.transports) (hb : b ∈ (s.manager (.client k)).transports)
    (ht : Talk m.strings (s.manager (.client k)).strings st (m.at? a p) ((s.manager (.client k)).at? b q)
      (n.notes a p) (n.notes b q)) : (s.put .server (m, n)).Joins a p b q st :=
  ⟨k, by simpa using ha, by simpa using hb, by simpa using ht⟩

theorem joins_put_client (hb : b ∈ (s.manager .server).transports) (ha : a ∈ m.transports)
    (ht : Talk (s.manager .server).strings m.strings st ((s.manager .server).at? b q) (m.at? a p) (n.notes b q)
      (n.notes a p)) : (s.put (.client k) (m, n)).Joins b q a p st :=
  ⟨k, by simpa using hb, by simpa using ha, by simpa using ht⟩

/-- A party gives its transports up, and its connections with them. -/
theorem Sound.leave (h : s.Sound) (hm : x.Fits m) (htransports : m.transports = []) (hcut : Cut s.net n)
    (hn : n.Sound) (hbound : ∀ a, n.isBound a = true ↔ s.net.isBound a = true ∧ a ∉ (s.manager x).transports) :
    (s.put x (m, n)).Sound := by
  -- Whoever still has a transport is another party.
  have hother : ∀ {y a}, a ∈ ((s.put x (m, n)).manager y).transports → y ≠ x := by
    intro y a ha
    rintro rfl
    rw [manager_put_self, htransports] at ha
    cases ha
  have hkept : ∀ {y a}, a ∈ ((s.put x (m, n)).manager y).transports →
      a ∈ (s.manager y).transports ∧ n.isBound a = true := by
    intro y a ha
    have hy := hother ha
    rw [manager_put_of_ne s hy] at ha
    exact ⟨ha, (hbound a).mpr ⟨h.bound ha, fun ha' => hy (h.apart ha ha')⟩⟩
  -- A link that is left has its ends at other parties.
  have hleft : ∀ {y a p w}, n.wire? a p = some w → a ∈ (s.manager y).transports →
      (s.put x (m, n)).manager y = s.manager y := by
    intro y a p w hw ha
    refine manager_put_of_ne s (fun hy => ?_) _
    exact ((hbound a).mp (Network.isBound_of_wire? hw)).2 (hy ▸ ha)
  refine ⟨hn, fits_put h hm, fun ha => (hkept ha).2, fun ha ha' => h.apart (hkept ha).1 (hkept ha').1, fun {a} hl => ?_,
    fun {y a p c} hat hnone => ?_, fun {a p b q st} hw => ?_⟩
  · have ha := h.listens (hcut.listens hl)
    have hserver : Party.server ≠ x := fun heq => ((hbound a).mp (Network.isBound_of_listens hl)).2 (heq ▸ ha)
    rw [manager_put_of_ne s hserver]
    exact ha
  · have hmem := Manager.mem_transports_of_at? hat
    rw [manager_put_of_ne s (hother hmem)] at hat
    cases hw : s.net.wire? a p with
    | none => exact hcut.down (hkept hmem).2 (h.lost hat hw)
    | some w => exact hcut.lost (hkept hmem).2 hw hnone
  · have hback := hn.paired hw
    obtain ⟨hw₀, hnear⟩ := hcut.kept hw
    obtain ⟨-, hfar⟩ := hcut.kept hback
    rcases h.linked hw₀ with hj | hj
    · exact Or.inl (hj.kept (hleft hw) (fun hb _ => hleft hback hb) hnear hfar)
    · exact Or.inr (hj.kept (hleft hback) (fun hb _ => hleft hw hb) hfar hnear)

/-! ### What a party does at one end of a link -/

/-- A party acts at one end of a link. It is enough to look at this link. -/
theorem Sound.deal (h : s.Sound) (ha : a ∈ (s.manager x).transports) (hm : Acts (s.manager x) m a p)
    (hn : Deals s.net n a p) (hlost : ∀ {c}, m.at? a p = some c → n.wire? a p = none → .down ∈ n.notes a p)
    (hlinked : ∀ {b q st}, n.wire? a p = some ⟨b, q, st⟩ →
      (s.put x (m, n)).Joins a p b q st ∨ (s.put x (m, n)).Joins b q a p st) : (s.put x (m, n)).Sound := by
  have htransports : ∀ y, ((s.put x (m, n)).manager y).transports = (s.manager y).transports :=
    transports_put hm.transports
  have hat : ∀ {y b q}, ¬ (b = a ∧ q = p) → ((s.put x (m, n)).manager y).at? b q = (s.manager y).at? b q := by
    intro y b q hne
    exact forall_put (P := fun y m => m.at? b q = (s.manager y).at? b q) (hm.at? hne) (fun _ _ => rfl) y
  have htable : (s.manager .server).strings.locked = true →
      ((s.put x (m, n)).manager .server).strings = (s.manager .server).strings := by
    intro hl
    by_cases hx : Party.server = x
    · subst hx
      rw [manager_put_self]
      exact hm.locked h.side_server hl
    · rw [manager_put_of_ne s hx]
  -- A client that has its connection elsewhere does nothing here.
  have hown : ∀ {k b q c}, ¬ (b = a ∧ q = p) → (s.manager (.client k)).at? b q = some c →
      ((s.put x (m, n)).manager (.client k)).strings = (s.manager (.client k)).strings := by
    intro k b q c hne hc
    by_cases hx : Party.client k = x
    · subst hx
      rw [manager_put_self]
      rcases hm.client (h.side_client k) with rfl | ⟨c', hc'⟩
      · rfl
      · exact absurd ((h.fits _).single (h.side_client k) hc hc') hne
    · rw [manager_put_of_ne s hx]
  -- A talk elsewhere goes on.
  have hsame : ∀ {b q c r st}, ¬ (b = a ∧ q = p) → ¬ (c = a ∧ r = p) → ¬ AtLink s.net a p b q → ¬ AtLink s.net a p c r →
      s.Joins b q c r st → (s.put x (m, n)).Joins b q c r st := by
    intro b q c r st hbq hcr hnear hfar hj
    refine hj.congr ⟨htransports _, hat hbq⟩ htable (fun {k y} hc hy => ⟨?_, hat hcr, hown hcr hy⟩)
      (hn.alike.notes hnear) (hn.alike.notes hfar)
    rw [htransports]
    exact hc
  refine h.of_stays ⟨htransports, hn.alike.isBound, hn.alike.listens⟩ hn.sound (fits_put h (hm.fits (h.fits x)))
    (fun {y b q c} hc hnone => ?_) fun {b q c r st} hw => ?_
  · by_cases hbq : b = a ∧ q = p
    · obtain ⟨rfl, rfl⟩ := hbq
      have hmem : b ∈ (s.manager y).transports := htransports y ▸ Manager.mem_transports_of_at? hc
      obtain rfl := h.apart hmem ha
      rw [manager_put_self] at hc
      exact hlost hc hnone
    · rw [hat hbq] at hc
      by_cases hlink : AtLink s.net a p b q
      · obtain ⟨st, hw⟩ := hlink.resolve_left hbq
        exact hn.down_far hw hnone
      · rw [net_put, hn.alike.wire? hlink] at hnone
        rw [net_put, hn.alike.notes hlink]
        exact h.lost hc hnone
  · rw [net_put] at hw
    have hback := hn.sound.paired hw
    by_cases hbq : b = a ∧ q = p
    · obtain ⟨rfl, rfl⟩ := hbq
      exact hlinked hw
    by_cases hcr : c = a ∧ r = p
    · obtain ⟨rfl, rfl⟩ := hcr
      exact (hlinked hback).symm
    have hnear := hn.not_atLink hw hbq hcr
    have hfar := hn.not_atLink hback hcr hbq
    rw [hn.alike.wire? hnear] at hw
    rcases h.linked hw with hj | hj
    · exact Or.inl (hsame hbq hcr hnear hfar hj)
    · exact Or.inr (hsame hcr hbq hfar hnear hj)

/-! ### Away from all links -/

/-- A party changes in nothing that a link has to do with. A client keeps its name table, and so does a server that
    has locked it. -/
theorem Sound.stir (h : s.Sound) (hm : x.Fits m) (htransports : m.transports = (s.manager x).transports)
    (hat : ∀ a p, m.at? a p = (s.manager x).at? a p)
    (hstrings : (x = .server → (s.manager x).strings.locked = true) → m.strings = (s.manager x).strings)
    (hn : n.Sound) (halike : Alike s.net n fun _ _ => False) : (s.put x (m, n)).Sound := by
  have htransports' : ∀ y, ((s.put x (m, n)).manager y).transports = (s.manager y).transports :=
    transports_put htransports
  have hat' : ∀ y a p, ((s.put x (m, n)).manager y).at? a p = (s.manager y).at? a p :=
    forall_put (P := fun y m => ∀ a p, m.at? a p = (s.manager y).at? a p) hat fun _ _ _ _ => rfl
  have hstrings' : ∀ y, (y = .server → (s.manager y).strings.locked = true) →
      ((s.put x (m, n)).manager y).strings = (s.manager y).strings :=
    forall_put (P := fun y m => (y = .server → (s.manager y).strings.locked = true) →
      m.strings = (s.manager y).strings) hstrings fun _ _ _ => rfl
  have hwire : ∀ a p, n.wire? a p = s.net.wire? a p := fun _ _ => halike.wire? id
  have hnotes : ∀ a p, n.notes a p = s.net.notes a p := fun _ _ => halike.notes id
  have hsame : ∀ {a p b q st}, s.Joins a p b q st → (s.put x (m, n)).Joins a p b q st := by
    intro a p b q st hj
    refine hj.congr ⟨htransports' _, hat' ..⟩ (fun hl => hstrings' _ fun _ => hl)
      (fun hb _ => ⟨?_, hat' .., hstrings' _ nofun⟩) (hnotes _ _) (hnotes _ _)
    rw [htransports']
    exact hb
  refine h.of_stays ⟨htransports', halike.isBound, halike.listens⟩ hn (fits_put h hm) (fun hc hnone => ?_) fun hw => ?_
  · rw [hat'] at hc
    rw [net_put, hwire] at hnone
    rw [net_put, hnotes]
    exact h.lost hc hnone
  · rw [net_put, hwire] at hw
    exact (h.linked hw).imp hsame hsame

end System
end StateSync
