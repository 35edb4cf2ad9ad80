import StateSync.Proofs.Binary32
import StateSync.Settings

/-! What the settings can be changed to. Each key has a value of its own, and a change puts there what its text reads as
    (`set_eq_ok_iff`), whatever the other settings are. So every setting holds a value that can be read for its key
    (`Readable`), and that is enough to use it: there are hosts to listen on, the rates are positive and the loss is a
    percentage (`setAll_usable`). -/

namespace StateSync
namespace Settings
variable {s t : Settings} {k l : Key} {key text : String}

/-! ### The values of the keys -/

inductive Value where
  | number (n : Nat)
  | text (s : String)
  | flag (b : Bool)
  | percent (x : Binary32)
  deriving DecidableEq, Repr

def value (s : Settings) : Key → Value
  | .port => .number s.port.toNat
  | .hosts => .text s.hosts
  | .tickRate => .number s.tickRate
  | .commandRate => .number s.commandRate
  | .rateLimit => .number s.rateLimit
  | .bufferMin => .number s.buffer.minSize
  | .bufferMax => .number s.buffer.maxSize
  | .extrapolation => .flag s.buffer.extrapolation
  | .shutdownTimeout => .number s.shutdownTimeout
  | .loss => .percent s.loss
  | .minLatency => .number s.minLatency
  | .maxLatency => .number s.maxLatency
  | .jitter => .number s.jitter

/-- The settings are no more than the values of their keys. -/
theorem ext_value (h : ∀ k, s.value k = t.value k) : s = t := by
  obtain ⟨port, hosts, tickRate, commandRate, rateLimit, ⟨minSize, maxSize, extrapolation⟩, shutdownTimeout, loss,
    minLatency, maxLatency, jitter⟩ := s
  obtain ⟨port', hosts', tickRate', commandRate', rateLimit', ⟨minSize', maxSize', extrapolation'⟩, shutdownTimeout',
    loss', minLatency', maxLatency', jitter'⟩ := t
  have hport : port = port' := UInt16.toNat_inj.mp (Value.number.inj (h .port))
  cases hport
  cases h .hosts
  cases h .tickRate
  cases h .commandRate
  cases h .rateLimit
  cases h .bufferMin
  cases h .bufferMax
  cases h .extrapolation
  cases h .shutdownTimeout
  cases h .loss
  cases h .minLatency
  cases h .maxLatency
  cases h .jitter
  rfl

/-- What a text reads as for a key. -/
def Key.read (k : Key) (text : String) : Except SettingFault Value :=
  match k with
  | .port => (readNumber bound16 k.text text).map .number
  | .hosts => (hostList text).map fun _ => .text text
  | .tickRate | .commandRate => (readPositive k.text text).map .number
  | .rateLimit | .minLatency | .maxLatency | .jitter => (readNumber bound32 k.text text).map .number
  | .bufferMin | .bufferMax | .shutdownTimeout => (readNumber bound64 k.text text).map .number
  | .extrapolation => (readValue flag? k.text text).map .flag
  | .loss => (readPercent k.text text).map .percent

theorem text_of_ofText? (h : Key.ofText? key = some k) : k.text = key := by
  have hfound := List.find?_some h
  exact of_decide_eq_true hfound

/-! ### One change -/

section
variable {α : Type} {r : Except SettingFault α} {f : Settings → α → Settings} {v : α → Value} {fault : SettingFault}

theorem put_eq_error_iff : (s.put r f).1 = .error fault ↔ r.map v = .error fault := by
  cases r <;> simp [put, Except.map]

/-- Where nothing has been read nothing is put. -/
theorem put_refused (h : s.put r f = (.error fault, t)) : t = s := by
  cases r with
  | error e => exact (Prod.mk.inj h).2.symm
  | ok x => cases h

/-- What has been read becomes the value of its key, and no other value changes. -/
theorem put_eq_ok (h : s.put r f = (.ok (), t)) (hself : ∀ x, r = .ok x → (f s x).value k = v x)
    (hothers : ∀ x l, l ≠ k → (f s x).value l = s.value l) :
    r.map v = .ok (t.value k) ∧ ∀ l, l ≠ k → t.value l = s.value l := by
  cases r with
  | error e => cases h
  | ok x =>
    cases h
    exact ⟨congrArg Except.ok (hself x rfl).symm, hothers x⟩

end

theorem readNumber_lt {bound n : Nat} (h : readNumber bound key text = .ok n) : n < bound := by
  rw [readNumber, readValue] at h
  split at h
  case h_1 m hm =>
    cases h
    exact of_decide_eq_true (Option.filter_eq_some_iff.mp hm).2
  case h_2 => cases h

theorem setKey_eq_error_iff {fault : SettingFault} :
    (s.setKey k text).1 = .error fault ↔ k.read text = .error fault := by
  cases k <;> rw [setKey, Key.read, put_eq_error_iff]

theorem setKey_refused {fault : SettingFault} (h : s.setKey k text = (.error fault, t)) : t = s := by
  cases k <;> rw [setKey] at h <;> exact put_refused h

theorem read_of_setKey (h : s.setKey k text = (.ok (), t)) :
    k.read text = .ok (t.value k) ∧ ∀ l, l ≠ k → t.value l = s.value l := by
  cases k <;> rw [setKey] at h <;> rw [Key.read]
  case port =>
    refine put_eq_ok h (fun n hn => ?_) (fun _ l hl => by cases l <;> first | rfl | exact absurd rfl hl)
    exact congrArg Value.number (UInt16.toNat_ofNat_of_lt' (readNumber_lt hn))
  all_goals exact put_eq_ok h (fun _ _ => rfl) (fun _ l hl => by cases l <;> first | rfl | exact absurd rfl hl)

theorem set_refused {fault : SettingFault} (h : s.set key text = (.error fault, t)) : t = s := by
  rw [set] at h
  split at h
  · exact setKey_refused h
  · exact (Prod.mk.inj h).2.symm

/-- A change is made if its text reads as something for its key. That becomes the value of the key. -/
theorem set_eq_ok_iff : s.set key text = (.ok (), t) ↔
    ∃ k, Key.ofText? key = some k ∧ k.read text = .ok (t.value k) ∧ ∀ l, l ≠ k → t.value l = s.value l := by
  rw [set]
  cases hkey : Key.ofText? key with
  | none => simp
  | some k =>
    simp only [Option.some.injEq, exists_eq_left']
    refine ⟨read_of_setKey, fun ⟨hread, hothers⟩ => ?_⟩
    rcases hset : s.setKey k text with ⟨fault | ⟨⟨⟩⟩, u⟩
    · rw [setKey_eq_error_iff.mp (congrArg Prod.fst hset)] at hread
      cases hread
    · obtain ⟨hread', hothers'⟩ := read_of_setKey hset
      have hsame : u.value k = t.value k := Except.ok.inj (hread'.symm.trans hread)
      refine congrArg (Prod.mk _) (ext_value fun l => ?_)
      by_cases hl : l = k
      · rw [hl, hsame]
      · rw [hothers' l hl, hothers l hl]

/-! ### Values that can be read -/

/-- Every setting holds a value that can be read for its key. -/
def Readable (s : Settings) : Prop := ∀ k : Key, ∃ text, k.read text = .ok (s.value k)

def Key.initialText : Key → String
  | .port => "27015"
  | .hosts => "0.0.0.0"
  | .tickRate | .commandRate => "60"
  | .rateLimit | .loss | .minLatency | .maxLatency | .jitter => "0"
  | .bufferMin => "3"
  | .bufferMax => "64"
  | .extrapolation => "false"
  | .shutdownTimeout => "2000"

theorem readable_initial : Readable initial := by
  intro k
  refine ⟨k.initialText, ?_⟩
  cases k <;> rfl

theorem Readable.set (h : s.Readable) (key text : String) : (s.set key text).2.Readable := by
  rcases hset : s.set key text with ⟨fault | ⟨⟨⟩⟩, t⟩
  · obtain rfl := set_refused hset
    exact h
  · obtain ⟨k, -, hread, hothers⟩ := set_eq_ok_iff.mp hset
    intro l
    by_cases hl : l = k
    · subst hl
      exact ⟨text, hread⟩
    · exact (hothers l hl).symm ▸ h l

section
variable {α : Type} {r : Except SettingFault α} {v : α → Value} {y : Value}

theorem map_eq_ok (h : r.map v = .ok y) : ∃ x, r = .ok x ∧ v x = y := by
  cases r with
  | error e => cases h
  | ok x => exact ⟨x, rfl, Except.ok.inj h⟩

end

theorem hostList_ne_nil {hs : List Host} (h : hostList text = .ok hs) : hs ≠ [] := by
  rw [hostList] at h
  split at h
  · cases h
  · cases h
  case h_3 hs hne _ =>
    cases h
    exact hne

theorem readPositive_pos {n : Nat} (h : readPositive key text = .ok n) : 0 < n := by
  rw [readPositive] at h
  split at h
  · cases h
  · split at h
    case isTrue => cases h
    case isFalse hne =>
      cases h
      exact Nat.pos_of_ne_zero hne

/-- A number from zero to a hundred. -/
structure IsPercent (x : Binary32) : Prop where
  number : x.isNaN = false
  finite : x.isInfinite = false
  nonneg : 0 ≤ x.signedUnits
  le_hundred : x.signedUnits ≤ 100 * Binary32.one

theorem readPercent_isPercent {x : Binary32} (h : readPercent key text = .ok x) : IsPercent x := by
  rw [readPercent] at h
  split at h
  · cases h
  · split at h
    case isFalse => cases h
    case isTrue hbounds =>
      cases h
      obtain ⟨hleast, hgreatest⟩ := Bool.and_eq_true_iff.mp hbounds
      obtain ⟨-, hnumber, hnonneg⟩ := Binary32.le_iff.mp hleast
      obtain ⟨-, -, hhundred⟩ := Binary32.le_iff.mp hgreatest
      have hzero : Binary32.signedUnits ⟨0⟩ = 0 := by decide +kernel
      have hexact : (Binary32.ofNat 100).signedUnits = 100 * Binary32.one := by decide +kernel
      have hinfinite : 100 * Binary32.one < (Binary32.infinity false).units := by decide +kernel
      rw [hzero] at hnonneg
      rw [hexact] at hhundred
      exact ⟨hnumber, Binary32.isInfinite_eq_false (by omega), hnonneg, hhundred⟩

namespace Readable

theorem hostList (h : s.Readable) : ∃ hs, Settings.hostList s.hosts = .ok hs := by
  obtain ⟨text, hread⟩ := h .hosts
  obtain ⟨hs, hlist, htext⟩ := map_eq_ok hread
  cases htext
  exact ⟨hs, hlist⟩

/-- The hosts can be read whatever the port was when they were set. -/
theorem addresses (h : s.Readable) :
    ∃ addresses, s.addresses = .ok addresses ∧ addresses ≠ [] ∧ ∀ a ∈ addresses, a.port = s.port := by
  obtain ⟨hs, hlist⟩ := h.hostList
  refine ⟨hs.map fun host => ⟨host, s.port⟩, by rw [Settings.addresses, hlist], ?_, ?_⟩
  · exact mt List.map_eq_nil_iff.mp (hostList_ne_nil hlist)
  · intro a ha
    obtain ⟨host, -, rfl⟩ := List.mem_map.mp ha
    rfl

theorem tickRate_pos (h : s.Readable) : 0 < s.tickRate := by
  obtain ⟨text, hread⟩ := h .tickRate
  obtain ⟨n, hn, hvalue⟩ := map_eq_ok hread
  cases hvalue
  exact readPositive_pos hn

theorem commandRate_pos (h : s.Readable) : 0 < s.commandRate := by
  obtain ⟨text, hread⟩ := h .commandRate
  obtain ⟨n, hn, hvalue⟩ := map_eq_ok hread
  cases hvalue
  exact readPositive_pos hn

theorem loss (h : s.Readable) : IsPercent s.loss := by
  obtain ⟨text, hread⟩ := h .loss
  obtain ⟨x, hx, hvalue⟩ := map_eq_ok hread
  cases hvalue
  exact readPercent_isPercent hx

end Readable

/-! ### Changes one after another -/

/-- Makes changes one after another, each a key and a value. -/
def setAll (s : Settings) (changes : List (String × String)) : Settings :=
  changes.foldl (fun s c => (s.set c.1 c.2).2) s

theorem Readable.setAll (h : s.Readable) (changes : List (String × String)) : (s.setAll changes).Readable :=
  List.foldlRecOn (motive := Readable) changes _ h fun _ h c _ => h.set c.1 c.2

/-- What can be made of settings, and what becomes of them with a change. -/
structure Usable (s : Settings) : Prop where
  /-- A change that is refused leaves them as they are. -/
  refused : ∀ key text fault t, s.set key text = (.error fault, t) → t = s
  /-- One that is made puts what its text reads as at its key, and leaves all other values as they are. -/
  made : ∀ key text t, s.set key text = (.ok (), t) →
    ∃ k : Key, k.text = key ∧ k.read text = .ok (t.value k) ∧ ∀ l, l ≠ k → t.value l = s.value l
  /-- There are hosts to listen on, each at the port of now. -/
  addresses : ∃ addresses, s.addresses = .ok addresses ∧ addresses ≠ [] ∧ ∀ a ∈ addresses, a.port = s.port
  tickRate : 1 ≤ s.tickRate
  commandRate : 1 ≤ s.commandRate
  loss : IsPercent s.loss

/-- Settings are of use whatever changes they have been through since they were the initial ones. -/
theorem setAll_usable (changes : List (String × String)) : Usable (initial.setAll changes) := by
  have hreadable : (initial.setAll changes).Readable := readable_initial.setAll changes
  refine ⟨fun _ _ _ _ => set_refused, fun key text t hset => ?_, hreadable.addresses, hreadable.tickRate_pos,
    hreadable.commandRate_pos, hreadable.loss⟩
  obtain ⟨k, hkey, hread, hothers⟩ := set_eq_ok_iff.mp hset
  exact ⟨k, text_of_ofText? hkey, hread, hothers⟩

end Settings
end StateSync
