import StateSync.Assoc
import StateSync.Proofs.StringTable.Replacement

/-! Name tables over any sequence of operations, those that fail included. What holds of a table at any time
    (`run_create`) follows from `Sound`, which every operation keeps, and from what an operation does to the names: it
    adds one behind the others, or takes over a whole table. A table that keeps the places of its names beside them
    (`Indexed`), and so has two things to keep in step, answers as this one does (`Indexed.Mirrors.run`). -/

namespace StateSync
namespace StringTable

/-- What can be done to a table. -/
inductive Operation
  | add (name : String)
  | lock
  | replace (es : List TableEntry)

/-- What an operation gives back, which for a name is its place, and what it leaves. -/
def perform (t : StringTable) : Operation → Except NetError (Option UInt8) × StringTable
  | .add name =>
    match t.add name with
    | .error e => (.error e, t)
    | .ok (id, t) => (.ok (some id), t)
  | .lock => (.ok none, t.lock)
  | .replace es =>
    match t.replace es with
    | .error e => (.error e, t)
    | .ok t => (.ok none, t)

def run (t : StringTable) (ops : List Operation) : StringTable := ops.foldl (fun t op => (t.perform op).2) t

variable {t t' : StringTable} {name : String} {id : UInt8} {place : Option UInt8} {op : Operation} {e : NetError}
  {es : List TableEntry}

/-! ### Adding a name -/

/-- A name that is there is given its place before anything else is looked at. A new one is refused by a locked table
    first, then by a full one. -/
theorem add_eq_error_iff : t.add name = .error e ↔ t.find? name = none ∧
    (t.locked = true ∧ e = .tableLocked name ∨ t.locked = false ∧ capacity ≤ t.size ∧ e = .tableFull name) := by
  unfold add
  cases t.find? name with
  | some id => exact ⟨nofun, nofun⟩
  | none =>
    cases t.locked with
    | true => simp [eq_comm]
    | false =>
      by_cases hfull : capacity ≤ t.size
      · simp [hfull, eq_comm]
      · simp [hfull]

theorem idxOf?_concat {names : List String} (hnew : name ∉ names) (other : String) :
    (names ++ [name]).idxOf? other = if name = other then some names.length else names.idxOf? other := by
  rw [List.idxOf?, List.findIdx?_append]
  by_cases hname : name = other
  · subst hname
    rw [if_pos rfl, ← List.idxOf?, List.idxOf?_eq_none_iff.mpr hnew]
    simp
  · rw [if_neg hname]
    simp [hname]

theorem names_prefix_of_add (h : t.add name = .ok (id, t')) : t.names <+: t'.names := by
  rcases add_cases h with rfl | ⟨-, -, -, rfl⟩
  · exact List.prefix_rfl
  · exact List.prefix_append _ _

/-- The place that a name is given is where it is found. -/
theorem find?_of_add (h : t.add name = .ok (id, t')) : t'.find? name = some id := by
  unfold add at h
  split at h
  · rename_i hfind
    obtain ⟨rfl, rfl⟩ := Prod.mk.inj (Except.ok.inj h)
    exact hfind
  · rename_i hnone
    split at h
    · cases h
    split at h
    · cases h
    obtain ⟨rfl, rfl⟩ := Prod.mk.inj (Except.ok.inj h)
    rw [find?, idxOf?_concat (find?_eq_none_iff.mp hnone), if_pos rfl]
    rfl

/-! ### What an operation keeps -/

theorem perform_of_error : (t.perform op).1 = .error e → (t.perform op).2 = t := by
  cases op with
  | add name =>
    simp only [perform]
    split
    · exact fun _ => rfl
    · exact nofun
  | lock => exact nofun
  | replace es =>
    simp only [perform]
    split
    · exact fun _ => rfl
    · exact nofun

/-- What an operation leaves: the table as it was, or what the operation comes to when it succeeds. -/
theorem perform_cases (t : StringTable) (op : Operation) : (t.perform op).2 = t ∨
    (∃ name id, t.add name = .ok (id, (t.perform op).2)) ∨ (t.perform op).2 = t.lock ∨
      ∃ es, t.replace es = .ok (t.perform op).2 := by
  cases op with
  | add name =>
    cases ha : t.add name with
    | error e => exact Or.inl (perform_of_error (by rw [perform, ha]))
    | ok r => exact Or.inr (Or.inl ⟨name, r.1, by rw [perform, ha]⟩)
  | lock => exact Or.inr (Or.inr (Or.inl rfl))
  | replace es =>
    cases hr : t.replace es with
    | error e => exact Or.inl (perform_of_error (by rw [perform, hr]))
    | ok t' => exact Or.inr (Or.inr (Or.inr ⟨es, by rw [perform, hr]⟩))

theorem Sound.perform (h : t.Sound) (op : Operation) : (t.perform op).2.Sound := by
  rcases perform_cases t op with hsame | ⟨_, _, ha⟩ | hlock | ⟨_, hr⟩
  · rwa [hsame]
  · exact h.add ha
  · rw [hlock]
    exact h.lock
  · exact sound_of_replace hr

theorem locked_perform (h : t.locked = true) (op : Operation) : (t.perform op).2.locked = true := by
  rcases perform_cases t op with hsame | ⟨_, _, ha⟩ | hlock | ⟨_, hr⟩
  · rwa [hsame]
  · rwa [add_of_locked h ha]
  · rw [hlock]
    rfl
  · exact locked_of_replace hr

theorem Sound.run (h : t.Sound) (ops : List Operation) : (t.run ops).Sound := by
  induction ops generalizing t with
  | nil => exact h
  | cons op ops ih => exact ih (h.perform op)

theorem locked_run (h : t.locked = true) (ops : List Operation) : (t.run ops).locked = true := by
  induction ops generalizing t with
  | nil => exact h
  | cons op ops ih => exact ih (locked_perform h op)

/-- Names keep their places until the whole table is replaced. -/
theorem find?_perform_add (h : t.find? name = some id) (other : String) :
    (t.perform (.add other)).2.find? name = some id := by
  simp only [perform]
  split <;> rename_i ha
  · exact h
  · exact find?_of_prefix (names_prefix_of_add ha) h

theorem perform_add_eq_ok (h : (t.perform (.add name)).1 = .ok place) :
    ∃ id, place = some id ∧ (t.perform (.add name)).2.find? name = some id := by
  simp only [perform] at h ⊢
  split <;> rename_i ha <;> rw [ha] at h
  · cases h
  · exact ⟨_, (Except.ok.inj h).symm, find?_of_add ha⟩

theorem Sound.perform_add_eq_error_iff (h : t.Sound) : (t.perform (.add name)).1 = .error e ↔ t.find? name = none ∧
    (t.locked = true ∧ e = .tableLocked name ∨ t.locked = false ∧ t.size = capacity ∧ e = .tableFull name) := by
  have hbound : t.size ≤ capacity := h.bounded
  have hadd : (t.perform (.add name)).1 = .error e ↔ t.add name = .error e := by
    simp only [StringTable.perform]
    split <;> simp_all
  rw [hadd, add_eq_error_iff, show capacity ≤ t.size ↔ t.size = capacity by omega]

/-! ### A table that keeps the places of its names -/

/-- A table in two parts: the names by their places, and the places by their names. -/
structure Indexed where
  names : List String
  places : Assoc String UInt8
  locked : Bool

namespace Indexed

def create : Indexed := ⟨[bootstrapName], Assoc.empty.insert bootstrapName bootstrapId, false⟩

def get? (x : Indexed) (id : UInt8) : Option String := x.names[id.toNat]?

def find? (x : Indexed) (name : String) : Option UInt8 := x.places.get? name

def add (x : Indexed) (name : String) : Except NetError (Option UInt8) × Indexed :=
  match x.find? name with
  | some id => (.ok (some id), x)
  | none =>
    if x.locked then (.error (.tableLocked name), x)
    else if capacity ≤ x.names.length then (.error (.tableFull name), x)
    else
      let id := UInt8.ofNat x.names.length
      (.ok (some id), { x with names := x.names ++ [name], places := x.places.insert name id })

/-- Both parts of lines that count up and repeat no name. -/
def collect (names : List String) (places : Assoc String UInt8) :
    List TableEntry → Except FrameFault (List String × Assoc String UInt8)
  | [] => .ok (names, places)
  | e :: es =>
    if e.id.toNat ≠ names.length then .error .tableGap
    else if (places.get? e.name).isSome then .error .tableDuplicate
    else collect (names ++ [e.name]) (places.insert e.name e.id) es

def replace (x : Indexed) (es : List TableEntry) : Except NetError (Option UInt8) × Indexed :=
  match collect [] .empty (inOrder es) with
  | .error e => (.error (.malformed e), x)
  | .ok (names, places) =>
    if names.head? = some bootstrapName then (.ok none, ⟨names, places, true⟩)
    else (.error (.malformed .tableBootstrap), x)

def perform (x : Indexed) : Operation → Except NetError (Option UInt8) × Indexed
  | .add name => x.add name
  | .lock => (.ok none, { x with locked := true })
  | .replace es => x.replace es

def run (x : Indexed) (ops : List Operation) : Indexed := ops.foldl (fun x op => (x.perform op).2) x

variable {x : Indexed} {names : List String} {places : Assoc String UInt8}

/-- The places are those at which the names stand. -/
def Indexes (places : Assoc String UInt8) (names : List String) : Prop :=
  ∀ name, places.get? name = (names.idxOf? name).map UInt8.ofNat

theorem indexes_nil : Indexes .empty [] := fun _ => rfl

theorem Indexes.isSome_iff (h : Indexes places names) : (places.get? name).isSome = true ↔ name ∈ names := by
  rw [h name, Option.isSome_map, List.isSome_idxOf?]

/-- A new name goes behind the others, and its place is their number. -/
theorem Indexes.insert (h : Indexes places names) (hnew : name ∉ names) :
    Indexes (places.insert name (UInt8.ofNat names.length)) (names ++ [name]) := fun other => by
  rw [Assoc.get?_insert, h other, idxOf?_concat hnew]
  split <;> rfl

/-- The two tables say the same: all names at the same places, found at the same places, and the lock. -/
structure Mirrors (x : Indexed) (t : StringTable) : Prop where
  names : x.names = t.names
  places : ∀ name, x.find? name = t.find? name
  locked : x.locked = t.locked

theorem mirrors_create : create.Mirrors StringTable.create := by
  refine ⟨rfl, fun name => ?_, rfl⟩
  exact indexes_nil.insert List.not_mem_nil name

theorem Mirrors.get? (h : x.Mirrors t) (id : UInt8) : x.get? id = t.get? id := by
  rw [Indexed.get?, h.names, StringTable.get?]

/-- Checking the lines one by one, both parts come to the same names or to the same fault. -/
theorem collect_eq (es : List TableEntry) (h : Indexes places names) : ∃ f : List String → Assoc String UInt8,
    collect names places es = (StringTable.collect names es).map (fun names => (names, f names)) ∧
      ∀ names', StringTable.collect names es = .ok names' → Indexes (f names') names' := by
  induction es generalizing names places with
  | nil => exact ⟨fun _ => places, rfl, fun names' hok => Except.ok.inj hok ▸ h⟩
  | cons e es ih =>
    rw [collect, StringTable.collect]
    by_cases hid : e.id.toNat = names.length
    · by_cases hmem : e.name ∈ names
      · rw [if_neg (not_not_intro hid), if_pos (h.isSome_iff.mpr hmem), if_neg (not_not_intro hid), if_pos hmem]
        exact ⟨fun _ => places, rfl, by intro _ hok; cases hok⟩
      · rw [if_neg (not_not_intro hid), if_neg (mt h.isSome_iff.mp hmem), if_neg (not_not_intro hid), if_neg hmem]
        refine ih ?_
        rw [show e.id = UInt8.ofNat names.length by rw [← hid, UInt8.ofNat_toNat]]
        exact h.insert hmem
    · rw [if_pos hid, if_pos hid]
      exact ⟨fun _ => places, rfl, by intro _ hok; cases hok⟩

/-- Whatever is done to both tables, they give back the same and go on saying the same. -/
theorem Mirrors.perform (h : x.Mirrors t) (op : Operation) :
    (x.perform op).1 = (t.perform op).1 ∧ (x.perform op).2.Mirrors (t.perform op).2 := by
  cases op with
  | add name =>
    have hsize : x.names.length = t.size := congrArg List.length h.names
    simp only [Indexed.perform, Indexed.add, StringTable.perform, StringTable.add, h.places name, h.locked, hsize]
    cases hfind : t.find? name with
    | some id => exact ⟨rfl, h⟩
    | none =>
      dsimp only
      by_cases hlocked : t.locked = true
      · rw [if_pos hlocked, if_pos hlocked]
        exact ⟨rfl, h⟩
      rw [if_neg hlocked, if_neg hlocked]
      by_cases hfull : capacity ≤ t.size
      · rw [if_pos hfull, if_pos hfull]
        exact ⟨rfl, h⟩
      rw [if_neg hfull, if_neg hfull]
      exact ⟨rfl, congrArg (· ++ [name]) h.names, Indexes.insert h.places (find?_eq_none_iff.mp hfind), rfl⟩
  | lock => exact ⟨rfl, h.names, h.places, rfl⟩
  | replace es =>
    obtain ⟨f, hcollect, hindexes⟩ := collect_eq (inOrder es) indexes_nil
    simp only [Indexed.perform, Indexed.replace, StringTable.perform, StringTable.replace, namesOf, hcollect]
    rw [← inOrder]
    cases hnames : StringTable.collect [] (inOrder es) with
    | error e => exact ⟨rfl, h⟩
    | ok names =>
      simp only [Except.map]
      split
      · exact ⟨rfl, rfl, hindexes names hnames, rfl⟩
      · exact ⟨rfl, h⟩

theorem Mirrors.run (h : x.Mirrors t) (ops : List Operation) : (x.run ops).Mirrors (t.run ops) := by
  induction ops generalizing x t with
  | nil => exact h
  | cons op ops ih => exact ih (h.perform op).2

theorem perform_of_error : (x.perform op).1 = .error e → (x.perform op).2 = x := by
  cases op with
  | add name =>
    simp only [Indexed.perform, Indexed.add]
    split
    · exact nofun
    split
    · exact fun _ => rfl
    split
    · exact fun _ => rfl
    · exact nofun
  | lock => exact nofun
  | replace es =>
    simp only [Indexed.perform, Indexed.replace]
    split
    · exact fun _ => rfl
    split
    · exact nofun
    · exact fun _ => rfl

end Indexed

/-! ### Every run -/

/-- At any time a table has between one and as many names as a byte can tell apart, at the places from zero on, and the
    first is that of the message that carries the table. The look-ups are inverse to each other. Neither adding a name
    nor locking moves a name, and a name is found at the place that adding it gives back. A name is refused if it is new
    and the table is locked or has no room, and nothing that fails changes the table. A locked table stays locked. A
    table that keeps the places apart from the names gives back the same and has the same at the same places. -/
theorem run_create (ops : List Operation) :
    let t := create.run ops
    let x := Indexed.create.run ops
    (1 ≤ t.size ∧ t.size ≤ capacity ∧ t.get? bootstrapId = some bootstrapName) ∧
    (∀ id, (∃ name, t.find? name = some id) ↔ id.toNat < t.size) ∧
    (∀ id name, (t.get? id = some name ↔ t.find? name = some id) ∧ (x.get? id = some name ↔ x.find? name = some id)) ∧
    (∀ name id, t.find? name = some id →
      (∀ other, (t.perform (.add other)).2.find? name = some id) ∧ (t.perform .lock).2.find? name = some id) ∧
    (∀ name place, (t.perform (.add name)).1 = .ok place →
      ∃ id, place = some id ∧ (t.perform (.add name)).2.find? name = some id) ∧
    (∀ name e, (t.perform (.add name)).1 = .error e ↔ t.find? name = none ∧
      (t.locked = true ∧ e = .tableLocked name ∨ t.locked = false ∧ t.size = capacity ∧ e = .tableFull name)) ∧
    (∀ op e, (t.perform op).1 = .error e → (t.perform op).2 = t ∧ (x.perform op).2 = x) ∧
    (t.locked = true → ∀ later, (t.run later).locked = true) ∧
    x.Mirrors t ∧ ∀ op, (x.perform op).1 = (t.perform op).1 := by
  intro t x
  have h : t.Sound := sound_create.run ops
  have hx : x.Mirrors t := Indexed.mirrors_create.run ops
  refine ⟨⟨h.size_pos, h.bounded, h.get?_bootstrap⟩, fun id => ?_, fun id name => ⟨h.get?_eq_some_iff, ?_⟩,
    fun name id hfind => ⟨find?_perform_add hfind, hfind⟩, fun _ _ => perform_add_eq_ok,
    fun _ _ => h.perform_add_eq_error_iff, fun op e he => ⟨perform_of_error he, ?_⟩, locked_run, hx,
    fun op => (hx.perform op).1⟩
  · rw [← exists_get?_iff]
    exact exists_congr fun _ => h.get?_eq_some_iff.symm
  · rw [hx.get?, hx.places]
    exact h.get?_eq_some_iff
  · exact Indexed.perform_of_error ((hx.perform op).1.trans he)

/-- At any time a table is replaced by lines that take the places from zero on, each once, repeat no name, and give the
    first place to the message that carries the table, in whatever order they come, and by no others. Then it has these
    lines, either way they are looked up, and is locked. Otherwise the names, their places and the lock stay as they
    are, kept in one or in two parts. So the lines of a table, in any order, replace any other by that table. -/
theorem replace_run_create (ops : List Operation) (es : List TableEntry) :
    let t := create.run ops
    let x := Indexed.create.run ops
    ((∃ t', t.replace es = .ok t') ↔ IsTable es) ∧
    (∀ t', t.replace es = .ok t' → t'.locked = true ∧
      (∀ id name, t'.get? id = some name ↔ ⟨id, name⟩ ∈ es) ∧ ∀ id name, t'.find? name = some id ↔ ⟨id, name⟩ ∈ es) ∧
    (∀ t', t.replace es = .ok t' → (t.perform (.replace es)).2 = t' ∧ (x.perform (.replace es)).2.Mirrors t') ∧
    (∀ e, t.replace es = .error e → (t.perform (.replace es)).2 = t ∧ (x.perform (.replace es)).2 = x) ∧
    ∀ own : StringTable, es.Perm t.entries →
      ∃ t', own.replace es = .ok t' ∧ t'.locked = true ∧ t'.get? = t.get? ∧ t'.find? = t.find? := by
  intro t x
  have h : t.Sound := sound_create.run ops
  have hx : x.Mirrors t := Indexed.mirrors_create.run ops
  refine ⟨exists_replace_iff t, fun t' ht' => ⟨locked_of_replace ht', fun _ _ => get?_replace ht',
    fun _ _ => find?_replace ht'⟩, fun t' ht' => ?_, fun e he => ?_, fun own hp => ?_⟩
  · have hperform : (t.perform (.replace es)).2 = t' := by rw [perform, ht']
    exact ⟨hperform, hperform ▸ (hx.perform (.replace es)).2⟩
  · have herror : (t.perform (.replace es)).1 = .error e := by rw [perform, he]
    exact ⟨perform_of_error herror, Indexed.perform_of_error ((hx.perform _).1.trans herror)⟩
  · obtain ⟨t', ht', hget, hfind⟩ := h.replace_perm_entries own hp
    exact ⟨t', ht', locked_of_replace ht', hget, hfind⟩

end StringTable
end StateSync
