/-!
# Tables

A table maps texts to values and lists its entries in strictly increasing key order, so two tables with the same entries
are equal and every walk over one is in key order.  Keys are ordered by their scalar values, which is the order of their
UTF-8 bytes.  Entering a key that is there replaces its value.
-/
namespace SupplyTrail

variable {V : Type}

/-- Enter a key into a list of entries, before the first greater key. -/
def putEntry (key : String) (value : V) : List (String × V) → List (String × V)
  | [] => [(key, value)]
  | (k, v) :: rest =>
    if key < k then (key, value) :: (k, v) :: rest
    else if key = k then (key, value) :: rest
    else (k, v) :: putEntry key value rest

/-- The value of a key in a list of entries, the first one if there are several. -/
def valueOf? (key : String) : List (String × V) → Option V
  | [] => none
  | (k, v) :: rest => if k = key then some v else valueOf? key rest

def Increasing (entries : List (String × V)) : Prop :=
  (entries.map Prod.fst).Pairwise (· < ·)

theorem mem_keys_putEntry {key k : String} {value : V} {entries : List (String × V)}
    (h : k ∈ (putEntry key value entries).map Prod.fst) : k = key ∨ k ∈ entries.map Prod.fst := by
  induction entries with
  | nil => simp [putEntry] at h; exact .inl h
  | cons e rest ih =>
    obtain ⟨k', v'⟩ := e
    simp only [putEntry] at h
    split at h
    · simpa using h
    · split at h
      · next heq => subst heq; simpa using h
      · simp only [List.map_cons, List.mem_cons] at h ⊢
        rcases h with h | h
        · exact .inr (.inl h)
        · rcases ih h with h | h
          · exact .inl h
          · exact .inr (.inr h)

theorem mem_keys_putEntry_iff {key k : String} {value : V} {entries : List (String × V)} :
    k ∈ (putEntry key value entries).map Prod.fst ↔ k = key ∨ k ∈ entries.map Prod.fst := by
  refine ⟨mem_keys_putEntry, fun h => ?_⟩
  induction entries with
  | nil => simpa [putEntry] using h
  | cons e rest ih =>
    rw [List.map_cons, List.mem_cons] at h
    rw [putEntry]
    split
    · simpa using h
    · split
      · next heq => subst heq; simpa using h
      · rw [List.map_cons, List.mem_cons]
        rcases h with h | h | h
        · exact .inr (ih (.inl h))
        · exact .inl h
        · exact .inr (ih (.inr h))

theorem lt_of_not_lt_of_ne {a b : String} (h : ¬ a < b) (hne : a ≠ b) : b < a := by
  rcases String.le_total a b with hab | hab
  · exact absurd (String.le_antisymm hab (String.not_lt.1 h)) hne
  · exact Decidable.byContradiction fun hba => hne (String.le_antisymm (String.not_lt.1 hba) hab)

theorem increasing_putEntry (key : String) (value : V) {entries : List (String × V)} (h : Increasing entries) :
    Increasing (putEntry key value entries) := by
  induction entries with
  | nil => simp [putEntry, Increasing]
  | cons e rest ih =>
    obtain ⟨k, v⟩ := e
    simp only [Increasing, List.map_cons, List.pairwise_cons] at h
    obtain ⟨hk, hrest⟩ := h
    simp only [putEntry]
    split
    · next hlt =>
      simp only [Increasing, List.map_cons, List.pairwise_cons, List.mem_cons, forall_eq_or_imp]
      exact ⟨⟨hlt, fun a ha => String.lt_trans hlt (hk a ha)⟩, hk, hrest⟩
    · next hnlt =>
      split
      · next heq =>
        subst heq
        simp only [Increasing, List.map_cons, List.pairwise_cons]
        exact ⟨hk, hrest⟩
      · next hne =>
        simp only [Increasing, List.map_cons, List.pairwise_cons]
        refine ⟨fun a ha => ?_, ih hrest⟩
        rcases mem_keys_putEntry ha with rfl | ha
        · exact lt_of_not_lt_of_ne hnlt hne
        · exact hk a ha

/-- Entries by key, in key order. -/
structure Table (V : Type) where
  entries : List (String × V)
  increasing : Increasing entries

namespace Table

@[ext] theorem ext {s t : Table V} (h : s.entries = t.entries) : s = t := by
  cases s; cases t; cases h; rfl

instance [DecidableEq V] : DecidableEq (Table V) := fun s t =>
  decidable_of_iff (s.entries = t.entries) ⟨ext, fun h => h ▸ rfl⟩

def empty : Table V := ⟨[], .nil⟩

instance : Inhabited (Table V) := ⟨empty⟩

def insert (t : Table V) (key : String) (value : V) : Table V :=
  ⟨putEntry key value t.entries, increasing_putEntry key value t.increasing⟩

def get? (t : Table V) (key : String) : Option V := valueOf? key t.entries

def keys (t : Table V) : List String := t.entries.map Prod.fst

def values (t : Table V) : List V := t.entries.map Prod.snd

def size (t : Table V) : Nat := t.entries.length

/-- Enter pairs one after another; of equal keys the last one stays. -/
def ofList (pairs : List (String × V)) : Table V :=
  pairs.foldl (fun t e => t.insert e.1 e.2) empty

theorem mem_keys_foldl {k : String} (pairs : List (String × V)) : ∀ t : Table V,
    k ∈ (pairs.foldl (fun t e => t.insert e.1 e.2) t).keys ↔ k ∈ t.keys ∨ k ∈ pairs.map Prod.fst := by
  induction pairs with
  | nil => simp
  | cons e rest ih =>
    intro t
    have hput : k ∈ (t.insert e.1 e.2).keys ↔ k = e.1 ∨ k ∈ t.keys := mem_keys_putEntry_iff
    rw [List.foldl_cons, ih, List.map_cons, List.mem_cons, hput, or_assoc, or_left_comm]

/-- The keys of a table are those that were entered. -/
theorem mem_keys_ofList {k : String} {pairs : List (String × V)} :
    k ∈ (ofList pairs).keys ↔ k ∈ pairs.map Prod.fst := by
  rw [ofList, mem_keys_foldl]
  simp [keys, empty]

theorem increasing_map {W : Type} (f : V → W) {entries : List (String × V)} (h : Increasing entries) :
    Increasing (entries.map fun e => (e.1, f e.2)) := by
  simpa [Increasing, List.map_map, Function.comp_def] using h

def map {W : Type} (f : V → W) (t : Table V) : Table W :=
  ⟨t.entries.map fun e => (e.1, f e.2), increasing_map f t.increasing⟩

theorem putEntry_of_lt {key : String} {value : V} {entries : List (String × V)}
    (h : ∀ k ∈ entries.map Prod.fst, k < key) : putEntry key value entries = entries ++ [(key, value)] := by
  induction entries with
  | nil => rfl
  | cons e rest ih =>
    obtain ⟨k, v⟩ := e
    have hk : k < key := h k (by simp)
    have hne : key ≠ k := fun he => String.lt_irrefl k (he ▸ hk)
    have hlt : ¬ key < k := fun hc => String.lt_irrefl k (String.lt_trans hk hc)
    simp only [putEntry, hlt, hne, if_false, List.cons_append]
    rw [ih fun k' hk' => h k' (by simp [hk'])]

/-- Entering the entries of a table again gives the table. -/
theorem ofList_entries (t : Table V) : ofList t.entries = t := by
  have key : ∀ (pairs : List (String × V)) (acc : Table V),
      Increasing (acc.entries ++ pairs) →
      (pairs.foldl (fun t e => t.insert e.1 e.2) acc).entries = acc.entries ++ pairs := by
    intro pairs
    induction pairs with
    | nil => intro acc _; simp
    | cons e rest ih =>
      intro acc h
      have hput : (acc.insert e.1 e.2).entries = acc.entries ++ [e] := by
        refine putEntry_of_lt fun k hk => ?_
        simp only [Increasing, List.map_append, List.map_cons] at h
        exact (List.pairwise_append.1 h).2.2 k hk e.1 (by simp)
      rw [List.foldl_cons, ih (acc.insert e.1 e.2) (by rw [hput]; simpa using h), hput]
      simp
  exact ext (by simpa [ofList, empty] using key t.entries empty (by simpa [empty] using t.increasing))

end Table

end SupplyTrail
