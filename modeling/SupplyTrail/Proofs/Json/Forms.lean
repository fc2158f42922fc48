import SupplyTrail.Json.Decoding
/-!
# Forms — records that fit are found in full

A form finds all fields of an object that lists each of them once, whatever their order and whatever else it lists.
And what it finds is what the object has under the names of its fields (`Form.valueOf?_locate`).
-/
namespace SupplyTrail

variable {V : Type}

/-- A key that stands once is found with its value. -/
theorem valueOf?_of_count {key : String} {v : V} {entries : List (String × V)}
    (honce : (entries.map Prod.fst).count key ≤ 1) (h : (key, v) ∈ entries) : valueOf? key entries = some v := by
  induction entries with
  | nil => cases h
  | cons e rest ih =>
    obtain ⟨k, w⟩ := e
    rw [List.map_cons, List.count_cons] at honce
    by_cases hk : k = key
    · subst hk
      have hrest : k ∉ rest.map Prod.fst := List.count_eq_zero.1 (by simpa using honce)
      rw [valueOf?, if_pos rfl]
      rcases List.mem_cons.1 h with heq | h
      · cases heq
        rfl
      · exact absurd (List.mem_map_of_mem h) hrest
    · rw [valueOf?, if_neg hk]
      refine ih (by omega) ((List.mem_cons.1 h).resolve_left fun heq => hk ?_)
      cases heq
      rfl

theorem valueOf?_of_mem {key : String} {v : V} {entries : List (String × V)} (hdistinct : (entries.map Prod.fst).Nodup)
    (h : (key, v) ∈ entries) : valueOf? key entries = some v :=
  valueOf?_of_count (List.nodup_iff_count.1 hdistinct key) h

theorem valueOf?_eq_none_iff {key : String} {entries : List (String × V)} :
    valueOf? key entries = none ↔ key ∉ entries.map Prod.fst := by
  induction entries with
  | nil => simp [valueOf?]
  | cons e rest ih =>
    obtain ⟨k, w⟩ := e
    by_cases hk : k = key
    · simp [valueOf?, hk]
    · rw [valueOf?, if_neg hk, ih, List.map_cons, List.mem_cons, not_or]
      exact ⟨fun h => ⟨Ne.symm hk, h⟩, fun h => h.2⟩

theorem mem_of_valueOf? {key : String} {v : V} {entries : List (String × V)} (h : valueOf? key entries = some v) :
    (key, v) ∈ entries := by
  induction entries with
  | nil => cases h
  | cons e rest ih =>
    rw [valueOf?] at h
    split at h
    · rename_i hkey
      cases h
      exact hkey ▸ List.mem_cons_self
    · exact List.mem_cons_of_mem _ (ih h)

theorem valueOf?_map {W : Type} (f : V → W) (key : String) (entries : List (String × V)) :
    valueOf? key (entries.map fun e => (e.1, f e.2)) = (valueOf? key entries).map f := by
  induction entries with
  | nil => rfl
  | cons e rest ih =>
    rw [List.map_cons, valueOf?, valueOf?]
    split
    · rfl
    · exact ih

namespace Json

/-- Each member is a field that passes its check, none stands twice, and no field is missing. -/
structure Form.Fits (form : Form) (members : List (String × Source)) : Prop where
  distinct : (members.map Prod.fst).Nodup
  known : ∀ m ∈ members, ∃ f, form.fields.find? (·.name == m.1) = some f ∧ f.check m.2 = .ok ()
  complete : form.fields.map Field.name ⊆ members.map Prod.fst

/-- Members with keys that can be read. -/
def keyed (members : List (String × Source)) : List (Option String × Source) := members.map fun m => (some m.1, m.2)

namespace Form

variable {form : Form} {members found all : List (String × Source)}

def names (form : Form) : List String := form.fields.map Field.name

theorem find?_eq_none_iff {name : String} : form.fields.find? (·.name == name) = none ↔ name ∉ form.names := by
  simp [names, List.find?_eq_none]

theorem mem_names_of_find? {name : String} {f : Field} (h : form.fields.find? (·.name == name) = some f) :
    name ∈ form.names := by
  rw [names, List.mem_map]
  exact ⟨f, List.mem_of_find?_eq_some h, by simpa using List.find?_some h⟩

/-- One member: it is skipped, or it is a field that was not found before and holds what it may hold. -/
theorem gather_cons_iff {key : Option String} {x : Source} {rest : List (Option String × Source)} :
    form.gather ((key, x) :: rest) found = .ok all ↔ ∃ name, key = some name ∧
      (name ∉ form.names ∧ form.gather rest found = .ok all ∨
        ∃ f, form.fields.find? (·.name == name) = some f ∧ valueOf? name found = none ∧ f.check x = .ok () ∧
          form.gather rest ((name, x) :: found) = .ok all) := by
  cases key with
  | none => simp [gather]
  | some name =>
    have hnames : form.fields.find? (·.name == name) = none ↔ name ∉ form.names := find?_eq_none_iff
    rw [gather]
    cases hfind : form.fields.find? (·.name == name) with
    | none => simp [hfind, hnames.1 hfind]
    | some f =>
      have hname := mem_names_of_find? hfind
      cases hdup : valueOf? name found with
      | some y => simp [hfind, hname, hdup]
      | none => cases hcheck : f.check x <;> simp [hfind, hname, hdup, hcheck, bind, Except.bind]

theorem missing?_eq_none_iff {fields : List Field} :
    missing? found fields = none ↔ ∀ f ∈ fields, f.absence = .fault → valueOf? f.name found ≠ none := by
  simp [missing?, List.find?_eq_none]

/-- **Gathering succeeds** where no field stands twice and each holds what it may hold. -/
theorem exists_gather {members : List (String × Source)}
    (honce : ∀ name ∈ form.names, (members.map Prod.fst).count name + (found.map Prod.fst).count name ≤ 1)
    (hchecks : ∀ m ∈ members, ∀ f, form.fields.find? (·.name == m.1) = some f → f.check m.2 = .ok ()) :
    ∃ all, form.gather (keyed members) found = .ok all := by
  induction members generalizing found with
  | nil => exact ⟨found, rfl⟩
  | cons m rest ih =>
    have hrest : ∀ m' ∈ rest, ∀ f, form.fields.find? (·.name == m'.1) = some f → f.check m'.2 = .ok () :=
      fun m' hm' => hchecks m' (List.mem_cons_of_mem _ hm')
    simp only [List.map_cons, List.count_cons] at honce
    cases hfind : form.fields.find? (·.name == m.1) with
    | none =>
      have honce' : ∀ name ∈ form.names, (rest.map Prod.fst).count name + (found.map Prod.fst).count name ≤ 1 := by
        intro name hname
        have := honce name hname
        omega
      obtain ⟨all, hall⟩ := ih honce' hrest
      exact ⟨all, gather_cons_iff.2 ⟨m.1, rfl, .inl ⟨find?_eq_none_iff.1 hfind, hall⟩⟩⟩
    | some f =>
      have hnew : valueOf? m.1 found = none := by
        have hcount := honce m.1 (mem_names_of_find? hfind)
        simp only [BEq.rfl, if_true] at hcount
        exact valueOf?_eq_none_iff.2 (List.count_eq_zero.1 (by omega))
      have honce' : ∀ name ∈ form.names,
          (rest.map Prod.fst).count name + (((m.1, m.2) :: found).map Prod.fst).count name ≤ 1 := by
        intro name hname
        have := honce name hname
        simp only [List.map_cons, List.count_cons]
        omega
      obtain ⟨all, hall⟩ := ih honce' hrest
      exact ⟨all, gather_cons_iff.2 ⟨m.1, rfl, .inr ⟨f, hfind, hnew, hchecks m List.mem_cons_self f hfind, hall⟩⟩⟩

/-- What is gathered under the name of a field was found before, or is a member. -/
theorem valueOf?_gather {name : String} (hname : name ∈ form.names) (h : form.gather (keyed members) found = .ok all) :
    valueOf? name all = (valueOf? name found).or (valueOf? name members) := by
  induction members generalizing found with
  | nil =>
    cases h
    exact Option.or_none.symm
  | cons m rest ih =>
    obtain ⟨k, heq, ⟨hk, hrest⟩ | ⟨f, -, hnew, -, hrest⟩⟩ := gather_cons_iff.1 h
    · obtain rfl := Option.some.inj heq
      have hother : m.1 ≠ name := fun h => hk (h ▸ hname)
      rw [ih hrest, valueOf?, if_neg hother]
    · obtain rfl := Option.some.inj heq
      rw [ih hrest, valueOf?, valueOf?]
      by_cases hm : m.1 = name
      · subst hm
        rw [if_pos rfl, if_pos rfl, hnew]
        rfl
      · rw [if_neg hm, if_neg hm]

end Form

/-- **The fields of an object that fits a form are found.** -/
theorem Form.Fits.locate {form : Form} {members : List (String × Source)} (h : form.Fits members) :
    ∃ found, form.locate (.object (keyed members)) = .ok found ∧
      ∀ name x, (name, x) ∈ members → valueOf? name found = some x := by
  have honce : ∀ name ∈ form.names, (members.map Prod.fst).count name ≤ 1 := fun name _ =>
    List.nodup_iff_count.1 h.distinct name
  have hchecks : ∀ m ∈ members, ∀ f, form.fields.find? (·.name == m.1) = some f → f.check m.2 = .ok () := by
    intro m hm f hf
    obtain ⟨f', hf', hcheck⟩ := h.known m hm
    rw [hf] at hf'
    exact Option.some.inj hf' ▸ hcheck
  obtain ⟨all, hall⟩ : ∃ all, form.gather (keyed members) [] = .ok all := exists_gather honce hchecks
  have hvalue : ∀ name x, (name, x) ∈ members → valueOf? name all = some x := by
    intro name x hx
    obtain ⟨f, hf, -⟩ := h.known _ hx
    rw [valueOf?_gather (mem_names_of_find? hf) hall, valueOf?_of_mem h.distinct hx]
    rfl
  have hmissing : Form.missing? all form.fields = none := by
    refine missing?_eq_none_iff.2 fun f hf _ => ?_
    obtain ⟨m, hm, hname⟩ := List.mem_map.1 (h.complete (List.mem_map_of_mem hf))
    rw [← hname, hvalue m.1 m.2 hm]
    exact Option.some_ne_none _
  refine ⟨all, ?_, hvalue⟩
  simp only [Form.locate, hall, bind, Except.bind, hmissing]

/-- Members that are no fields of the form are skipped. -/
theorem Form.gather_known (form : Form) (members : List (String × Source)) : ∀ found : List (String × Source),
    form.gather (keyed (members.filter fun m => (form.fields.find? (·.name == m.1)).isSome)) found =
      form.gather (keyed members) found := by
  induction members with
  | nil => exact fun _ => rfl
  | cons m rest ih =>
    intro found
    cases hfind : form.fields.find? (·.name == m.1) with
    | none =>
      rw [List.filter_cons_of_neg (by simp [hfind]), ih]
      simp only [keyed, List.map_cons, gather, hfind]
    | some f =>
      rw [List.filter_cons_of_pos (by simp [hfind])]
      simp only [keyed, List.map_cons, gather, hfind] at ih ⊢
      split
      · rfl
      · cases f.check m.2 with
        | error e => rfl
        | ok u => exact ih _

theorem Form.locate_known (form : Form) (members : List (String × Source)) :
    form.locate (.object (keyed (members.filter fun m => (form.fields.find? (·.name == m.1)).isSome))) =
      form.locate (.object (keyed members)) := by
  rw [Form.locate, Form.locate, Form.gather_known]

theorem membersToSource_eq (members : List (String × Json)) :
    membersToSource members = keyed (members.map fun m => (m.1, m.2.toSource)) := by
  induction members with
  | nil => rfl
  | cons m rest ih =>
    rw [membersToSource, ih]
    rfl

/-- **What a form finds under the name of a field is what the object has there.** -/
theorem Form.valueOf?_locate {form : Form} {members found : List (String × Source)}
    (h : form.locate (.object (keyed members)) = .ok found) {name : String}
    (hfield : (form.fields.find? (·.name == name)).isSome) : valueOf? name found = valueOf? name members := by
  rw [locate] at h
  cases hgather : form.gather (keyed members) [] with
  | error e => rw [hgather] at h; cases h
  | ok all =>
    rw [hgather] at h
    simp only [bind, Except.bind] at h
    split at h
    · cases h
    · cases h
      obtain ⟨f, hf⟩ := Option.isSome_iff_exists.1 hfield
      rw [valueOf?_gather (mem_names_of_find? hf) hgather]
      rfl

/-- A field that was needed and read is a member of the object. -/
theorem Form.member_of_need {α : Type} {form : Form} {members : List (String × Json)} {found : List (String × Source)}
    (h : form.locate (object members).toSource = .ok found) {name : String}
    (hfield : (form.fields.find? (·.name == name)).isSome) {d : Decoder α} {a : α}
    (hread : need found name d = .ok a) : ∃ j, valueOf? name members = some j ∧ d j.toSource = .ok a := by
  rw [toSource, membersToSource_eq] at h
  rw [need, Form.valueOf?_locate h hfield, valueOf?_map] at hread
  cases hvalue : valueOf? name members with
  | none => rw [hvalue] at hread; cases hread
  | some j => rw [hvalue] at hread; exact ⟨j, rfl, hread⟩

/-- A field that was read, or left at its standard value, is a member of the object or is not. -/
theorem Form.member_of_needOr {α : Type} {form : Form} {members : List (String × Json)}
    {found : List (String × Source)} (h : form.locate (object members).toSource = .ok found) {name : String}
    (hfield : (form.fields.find? (·.name == name)).isSome) {standard : α} {d : Decoder α} {a : α}
    (hread : needOr standard found name d = .ok a) :
    (∃ j, valueOf? name members = some j ∧ d j.toSource = .ok a) ∨ valueOf? name members = none ∧ a = standard := by
  rw [toSource, membersToSource_eq] at h
  rw [needOr, Form.valueOf?_locate h hfield, valueOf?_map] at hread
  cases hvalue : valueOf? name members with
  | none => rw [hvalue] at hread; cases hread; exact .inr ⟨rfl, rfl⟩
  | some j => rw [hvalue] at hread; exact .inl ⟨j, rfl, hread⟩

theorem need_of_found {α : Type} {found : List (String × Source)} {name : String} {d : Decoder α} {x : Source} {a : α}
    (h : valueOf? name found = some x) (hd : d x = .ok a) : need found name d = .ok a := by
  rw [need, h]
  exact hd

theorem needOr_of_found {α : Type} (standard : α) {found : List (String × Source)} {name : String} {d : Decoder α}
    {x : Source} {a : α} (h : valueOf? name found = some x) (hd : d x = .ok a) :
    needOr standard found name d = .ok a := by
  rw [needOr, h]
  exact hd

theorem Field.check_of {α : Type} {absence : Absence} {name : String} {d : Decoder α} {x : Source} {a : α}
    (h : d x = .ok a) : (Field.of absence name d).check x = .ok () := by
  simp only [Field.of, h, Except.map]

theorem Field.check_error {α : Type} {absence : Absence} {name : String} {d : Decoder α} {x : Source} {e : Mismatch}
    (h : d x = .error e) : (Field.of absence name d).check x = .error e := by
  simp only [Field.of, h, Except.map]

end Json

end SupplyTrail
