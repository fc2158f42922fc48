import Mathlib.Data.List.Nodup
import SupplyTrail.Proofs.Checks
import SupplyTrail.Proofs.Json.Forms
/-!
# Records — which members of a document are read, and as what

A record is an object that has none of the record's fields twice, whatever else it has, or an array with the values of
the fields in their order (`Record`).  A form finds the fields of exactly these documents, if what stands under their
names is what they may hold (`Form.locate_bind_eq_ok_iff`).
-/
namespace SupplyTrail.Json

variable {α : Type} {s : Source}

/-! ## Values -/

namespace Source

def IsText (s : Source) (t : String) : Prop := s = .string t

def IsWord (s : Source) (w : UInt64) : Prop := ∃ n : Whole, s = .number (.whole n) ∧ n.value = w.toNat

/-- A whole number of 64 bits, one of them for the sign. -/
def IsSigned (s : Source) (i : Int) : Prop :=
  (∃ n : Whole, s = .number (.whole n) ∧ n.value = i) ∧ -9223372036854775808 ≤ i ∧ i < 9223372036854775808

/-- A value, all of it readable. -/
def IsValue (s : Source) (j : Json) : Prop := s.toJson? = some j

/-- A name, as a text or as the only member of an object, with null for its value. -/
def IsName (s : Source) (name : String) : Prop := s = .string name ∨ s = .object [(some name, .null)]

/-- Null, or what is read otherwise. -/
inductive OrNull (R : Source → α → Prop) : Source → Option α → Prop
  | null : OrNull R .null none
  | given {s : Source} {a : α} (hs : s ≠ .null) (h : R s a) : OrNull R s (some a)

/-- An array of what is read so. -/
def IsList (R : Source → α → Prop) (s : Source) (as : List α) : Prop :=
  ∃ items, s = .array items ∧ List.Forall₂ R items as

end Source

/-- What a decoder reads, and as what. -/
def Reads (d : Decoder α) (R : Source → α → Prop) : Prop := ∀ s a, d s = .ok a ↔ R s a

section Reads

open Decoder Source

variable {d : Decoder α} {R : Source → α → Prop}

theorem reads_text : Reads text IsText := by
  intro s t
  cases s <;> simp [text, refuse, IsText]

theorem reads_value : Reads value IsValue := by
  intro s j
  unfold value IsValue
  cases s.toJson? <;> simp

theorem whole_eq_ok_iff {want : String} {least bound n : Int} : whole want least bound s = .ok n ↔
    (∃ w : Whole, s = .number (.whole w) ∧ w.value = n) ∧ least ≤ n ∧ n < bound := by
  cases s with
  | number m =>
    cases m with
    | whole w =>
      by_cases hw : least ≤ w.value ∧ w.value < bound
      · simp only [whole, if_pos hw, Except.ok.injEq, Source.number.injEq, Number.whole.injEq, exists_eq_left']
        constructor
        · rintro rfl
          exact ⟨rfl, hw⟩
        · exact fun h => h.1
      · simp only [whole, if_neg hw, reduceCtorEq, Source.number.injEq, Number.whole.injEq, exists_eq_left', false_iff]
        rintro ⟨rfl, hbounds⟩
        exact hw hbounds
    | real x => simp [whole, refuse]
  | _ => simp [whole, refuse]

theorem reads_word64 : Reads word64 IsWord := by
  intro s w
  have hread : word64 s = .ok w ↔
      ∃ n : Int, whole "u64" 0 18446744073709551616 s = .ok n ∧ UInt64.ofNat n.toNat = w := by
    unfold word64
    cases whole "u64" 0 18446744073709551616 s <;> simp [Except.map]
  have hlt := w.toNat_lt
  simp only [hread, whole_eq_ok_iff]
  constructor
  · rintro ⟨n, ⟨⟨m, rfl, rfl⟩, hleast, hmost⟩, rfl⟩
    refine ⟨m, rfl, ?_⟩
    rw [UInt64.toNat_ofNat', Nat.mod_eq_of_lt (by omega)]
    omega
  · rintro ⟨m, rfl, hm⟩
    refine ⟨m.value, ⟨⟨m, rfl, rfl⟩, by omega, by omega⟩, ?_⟩
    rw [hm, Int.toNat_natCast, UInt64.ofNat_toNat]

theorem reads_signed64 : Reads signed64 IsSigned := by
  intro s i
  exact whole_eq_ok_iff

theorem reads_variant (names : List (String × α)) :
    Reads (variant names) fun s a => ∃ name, IsName s name ∧ valueOf? name names = some a := by
  intro s a
  have hpick : ∀ name, variant.pick names name = .ok a ↔ valueOf? name names = some a := by
    intro name
    unfold variant.pick
    cases valueOf? name names <;> simp
  unfold variant
  split <;> simp_all [IsName]

theorem Reads.nullable (h : Reads d R) : Reads (nullable d) (OrNull R) := by
  intro s o
  by_cases hs : s = .null
  · subst hs
    constructor
    · intro hread
      cases hread
      exact .null
    · intro hread
      cases hread with
      | null => rfl
      | given hne => exact absurd rfl hne
  · have hread : Decoder.nullable d s = (d s).map some := by cases s <;> first | rfl | exact absurd rfl hs
    rw [hread]
    constructor
    · intro hd
      cases ha : d s with
      | error e =>
        rw [ha] at hd
        cases hd
      | ok a =>
        rw [ha] at hd
        cases hd
        exact .given hs ((h s a).1 ha)
    · intro hnull
      cases hnull with
      | null => exact absurd rfl hs
      | given _ ha => rw [(h s _).2 ha, Except.map]

theorem mapM_eq_ok_iff (h : Reads d R) {items : List Source} {as : List α} :
    items.mapM d = .ok as ↔ List.Forall₂ R items as := by
  induction items generalizing as with
  | nil => cases as <;> simp [pure, Except.pure]
  | cons x items ih =>
    simp only [List.mapM_cons, bind_eq_ok_iff, pure, Except.pure, Except.ok.injEq, ih, h x]
    constructor
    · rintro ⟨a, ha, as', has, rfl⟩
      exact .cons ha has
    · intro has
      cases has with
      | cons ha has => exact ⟨_, ha, _, has, rfl⟩

theorem Reads.list (h : Reads d R) : Reads (list d) (IsList R) := by
  intro s as
  cases s <;> simp [Decoder.list, refuse, IsList, mapM_eq_ok_iff h]

end Reads

/-! ## Fields -/

/-- What stands under a name is read so. -/
def Has (R : Source → α → Prop) (members : List (String × Source)) (name : String) (a : α) : Prop :=
  ∃ s, valueOf? name members = some s ∧ R s a

/-- The same, or nothing stands there, for the standard value. -/
def HasOr (standard : α) (R : Source → α → Prop) (members : List (String × Source)) (name : String) (a : α) : Prop :=
  Has R members name a ∨ valueOf? name members = none ∧ a = standard

section Fields

variable {d : Decoder α} {R : Source → α → Prop} {members members' : List (String × Source)} {name : String} {a : α}
  {standard : α}

theorem Has.congr (h : Has R members name a) (heq : valueOf? name members = valueOf? name members') :
    Has R members' name a := by
  unfold Has at h ⊢
  rwa [← heq]

theorem HasOr.congr (h : HasOr standard R members name a) (heq : valueOf? name members = valueOf? name members') :
    HasOr standard R members' name a := by
  unfold HasOr at h ⊢
  rw [← heq]
  exact h.imp_left fun h => h.congr heq

theorem need_eq_ok_iff (h : Reads d R) : need members name d = .ok a ↔ Has R members name a := by
  unfold need Has
  cases valueOf? name members with
  | none => simp
  | some s => simp [h s a]

theorem needOr_eq_ok_iff (h : Reads d R) :
    needOr standard members name d = .ok a ↔ HasOr standard R members name a := by
  unfold needOr HasOr Has
  cases valueOf? name members with
  | none => simp [eq_comm]
  | some s => simp [h s a]

/-- What stands under the name of a field is what the field may hold. -/
def Field.Holds (f : Field) (members : List (String × Source)) : Prop :=
  match valueOf? f.name members with
  | some s => f.check s = .ok ()
  | none => f.absence ≠ .fault

theorem holds_of_has (hd : Reads d R) (h : Has R members name a) (absence : Absence) :
    (Field.of absence name d).Holds members := by
  obtain ⟨s, hs, ha⟩ := h
  have hname : valueOf? (Field.of absence name d).name members = some s := hs
  rw [Field.Holds, hname]
  exact Field.check_of ((hd s a).2 ha)

theorem holds_of_hasOr (hd : Reads d R) (h : HasOr standard R members name a) {absence : Absence}
    (habsence : absence ≠ .fault) : (Field.of absence name d).Holds members := by
  rcases h with h | ⟨hnone, -⟩
  · exact holds_of_has hd h absence
  · have hname : valueOf? (Field.of absence name d).name members = none := hnone
    rw [Field.Holds, hname]
    exact habsence

end Fields

/-! ## Records -/

/-- What a document has under the names of a record's fields.  It is an object, which has none of them twice, or an
array of their values in their order.  Values at the end of an array may lack, but not the first `least`. -/
inductive Record (names : List String) (least : Nat) : Source → List (String × Source) → Prop
  | object {members : List (String × Source)} (honce : ∀ name ∈ names, (members.map Prod.fst).count name ≤ 1) :
      Record names least (.object (keyed members)) members
  | array {items : List Source} (hleast : least ≤ items.length) (hmost : items.length ≤ names.length) :
      Record names least (.array items) (names.zip items)

theorem keyed_injective : Function.Injective keyed := by
  refine List.map_injective_iff.2 fun m m' h => ?_
  obtain ⟨hkey, hvalue⟩ := Prod.mk.inj h
  exact Prod.ext (Option.some.inj hkey) hvalue

theorem Record.unique {names : List String} {least : Nat} {members members' : List (String × Source)}
    (h : Record names least s members) (h' : Record names least s members') : members = members' := by
  cases h with
  | object =>
    generalize hs : Source.object (keyed members) = s at h'
    cases h' with
    | object => exact keyed_injective (Source.object.inj hs)
    | array => cases hs
  | array =>
    cases h' with
    | array => rfl

namespace Form

variable {form : Form} {members found all : List (String × Source)} {name : String}

/-- How many values an array must have, so that only fields with a standard value lack. -/
def leastOf : List Field → Nat
  | [] => 0
  | f :: fs => if f.absence = .standard ∧ leastOf fs = 0 then 0 else leastOf fs + 1

theorem leastOf_le_iff (fields : List Field) (n : Nat) :
    leastOf fields ≤ n ↔ ∀ f ∈ fields.drop n, f.absence = .standard := by
  induction fields generalizing n with
  | nil => simp [leastOf]
  | cons f fs ih =>
    cases n with
    | zero =>
      have hrest := ih 0
      rw [Nat.le_zero] at hrest
      by_cases hf : f.absence = .standard ∧ leastOf fs = 0
      · simp_all [leastOf]
      · simp_all [leastOf]
    | succ n =>
      have hrest := ih n
      unfold leastOf
      split <;> simp_all

/-! ### Objects -/

theorem keyed_of_gather {ms : List (Option String × Source)} (h : form.gather ms found = .ok all) :
    ∃ members, ms = keyed members := by
  induction ms generalizing found with
  | nil => exact ⟨[], rfl⟩
  | cons m rest ih =>
    obtain ⟨k, hk, ⟨-, hrest⟩ | ⟨-, -, -, -, hrest⟩⟩ := gather_cons_iff.1 h
    all_goals
      obtain ⟨members, rfl⟩ := ih hrest
      exact ⟨(k, m.2) :: members, by rw [keyed, keyed, List.map_cons, ← hk]⟩

theorem count_of_gather (h : form.gather (keyed members) found = .ok all) (hname : name ∈ form.names)
    (hfound : (found.map Prod.fst).count name ≤ 1) :
    (members.map Prod.fst).count name + (found.map Prod.fst).count name ≤ 1 := by
  induction members generalizing found with
  | nil => simpa using hfound
  | cons m rest ih =>
    obtain ⟨k, heq, ⟨hk, hrest⟩ | ⟨f, -, hnew, -, hrest⟩⟩ := gather_cons_iff.1 h
    · obtain rfl := Option.some.inj heq
      have hother : m.1 ≠ name := fun h => hk (h ▸ hname)
      rw [List.map_cons, List.count_cons_of_ne hother]
      exact ih hrest hfound
    · obtain rfl := Option.some.inj heq
      have hzero : (found.map Prod.fst).count m.1 = 0 := List.count_eq_zero.2 (valueOf?_eq_none_iff.1 hnew)
      have hone : (((m.1, m.2) :: found).map Prod.fst).count name ≤ 1 := by
        by_cases hm : m.1 = name
        · subst hm
          simp [hzero]
        · simpa [List.count_cons, hm] using hfound
      have hsum := ih hrest hone
      simp only [List.map_cons, List.count_cons] at hsum ⊢
      omega

/-! ### Arrays -/

theorem exists_align_iff {total count : Nat} {fields : List Field} {items : List Source} :
    (∃ all, form.align total count fields items found = .ok all) ↔ items.length ≤ fields.length ∧
      (∀ f ∈ fields.drop items.length, f.absence = .standard) ∧ ∀ p ∈ fields.zip items, p.1.check p.2 = .ok () := by
  induction fields generalizing items count found with
  | nil => cases items <;> simp [align]
  | cons f fs ih =>
    cases items with
    | nil =>
      have hrest : (∃ all, form.align total (count + 1) fs [] found = .ok all) ↔ _ := ih
      by_cases hf : f.absence = .standard
      · simpa [align, hf] using hrest
      · simp [align, hf]
    | cons x xs =>
      have hrest : (∃ all, form.align total (count + 1) fs xs ((f.name, x) :: found) = .ok all) ↔ _ := ih
      cases hcheck : f.check x with
      | error e => simp [align, hcheck, bind, Except.bind]
      | ok u => simpa [align, hcheck, bind, Except.bind] using hrest

theorem valueOf?_zip_eq_none {names : List String} (hname : name ∉ names) (items : List Source) :
    valueOf? name (names.zip items) = none := by
  rw [valueOf?_eq_none_iff, List.mem_map]
  rintro ⟨p, hp, rfl⟩
  exact hname (List.of_mem_zip hp).1

theorem valueOf?_align {total count : Nat} {fields : List Field} {items : List Source}
    (hnames : (fields.map Field.name).Nodup) (h : form.align total count fields items found = .ok all) :
    valueOf? name all = (valueOf? name ((fields.map Field.name).zip items)).or (valueOf? name found) := by
  induction fields generalizing items count found with
  | nil =>
    cases items with
    | nil =>
      cases h
      rfl
    | cons => cases h
  | cons f fs ih =>
    rw [List.map_cons, List.nodup_cons] at hnames
    cases items with
    | nil =>
      rw [align] at h
      split at h
      · exact (ih hnames.2 h).trans (by simp [valueOf?])
      · cases h
    | cons x xs =>
      obtain ⟨-, -, hrest⟩ := bind_eq_ok_iff.1 h
      rw [ih hnames.2 hrest, List.map_cons, List.zip_cons_cons, valueOf?, valueOf?]
      by_cases hf : f.name = name
      · subst hf
        rw [if_pos rfl, if_pos rfl, valueOf?_zip_eq_none hnames.1]
        rfl
      · rw [if_neg hf, if_neg hf]

theorem valueOf?_zip {fields : List Field} {items : List Source} (hnames : (fields.map Field.name).Nodup)
    {p : Field × Source} (hp : p ∈ fields.zip items) :
    valueOf? p.1.name ((fields.map Field.name).zip items) = some p.2 := by
  induction fields generalizing items with
  | nil => simp at hp
  | cons f fs ih =>
    rw [List.map_cons, List.nodup_cons] at hnames
    cases items with
    | nil => simp at hp
    | cons x xs =>
      rw [List.map_cons, List.zip_cons_cons, valueOf?]
      rcases List.mem_cons.1 hp with rfl | hp
      · rw [if_pos rfl]
      · have hother : f.name ≠ p.1.name := fun h => hnames.1 (h ▸ List.mem_map_of_mem (List.of_mem_zip hp).1)
        rw [if_neg hother]
        exact ih hnames.2 hp

/-! ### Documents -/

/-- What a form finds is what a record has there. -/
theorem record_of_locate (hnames : form.names.Nodup) (h : form.locate s = .ok found) :
    ∃ members, Record form.names (leastOf form.fields) s members ∧
      ∀ name ∈ form.names, valueOf? name found = valueOf? name members := by
  cases s with
  | object ms =>
    rw [locate] at h
    obtain ⟨all, hall, hfound⟩ := bind_eq_ok_iff.1 h
    obtain ⟨members, rfl⟩ := keyed_of_gather hall
    split at hfound
    · cases hfound
    · cases hfound
      refine ⟨members, .object fun name hname => ?_, fun name hname => ?_⟩
      · have := count_of_gather hall hname (Nat.zero_le _)
        omega
      · rw [valueOf?_gather hname hall]
        rfl
  | array items =>
    obtain ⟨hmost, hleast, -⟩ := exists_align_iff.1 ⟨found, h⟩
    refine ⟨form.names.zip items, .array ((leastOf_le_iff _ _).2 hleast) ?_, fun name _ => ?_⟩
    · rwa [names, List.length_map]
    · exact (valueOf?_align hnames h).trans Option.or_none
  | _ => cases h

/-- A form finds the fields of a record, if each holds what it may hold. -/
theorem exists_locate (hnames : form.names.Nodup) (h : Record form.names (leastOf form.fields) s members)
    (hholds : ∀ f ∈ form.fields, f.Holds members) : ∃ found, form.locate s = .ok found := by
  cases h with
  | object honce =>
    have hchecks : ∀ m ∈ members, ∀ f, form.fields.find? (·.name == m.1) = some f → f.check m.2 = .ok () := by
      intro m hm f hf
      have hfield := hholds f (List.mem_of_find?_eq_some hf)
      have hname : f.name = m.1 := by simpa using List.find?_some hf
      rwa [Field.Holds, hname, valueOf?_of_count (honce _ (mem_names_of_find? hf)) hm] at hfield
    obtain ⟨all, hall⟩ : ∃ all, form.gather (keyed members) [] = .ok all := exists_gather honce hchecks
    have hmissing : missing? all form.fields = none := by
      refine missing?_eq_none_iff.2 fun f hf hfault hnone => ?_
      have hmember : valueOf? f.name members = none := (valueOf?_gather (List.mem_map_of_mem hf) hall).symm.trans hnone
      have hfield := hholds f hf
      rw [Field.Holds, hmember] at hfield
      exact hfield hfault
    exact ⟨all, by simp only [locate, hall, bind, Except.bind, hmissing]⟩
  | array hleast hmost =>
    rw [names, List.length_map] at hmost
    refine exists_align_iff.2 ⟨hmost, (leastOf_le_iff _ _).1 hleast, fun p hp => ?_⟩
    have hfield := hholds p.1 (List.of_mem_zip hp).1
    rwa [Field.Holds, names, valueOf?_zip hnames hp] at hfield

/-- **What is read through a form**: the records whose members are what they are built from. -/
theorem locate_bind_eq_ok_iff {build : List (String × Source) → Except Mismatch α}
    {M : List (String × Source) → α → Prop} (hnames : form.names.Nodup)
    (hbuild : ∀ found a, build found = .ok a ↔ M found a)
    (hsame : ∀ {members members' a}, (∀ name ∈ form.names, valueOf? name members = valueOf? name members') →
      M members a → M members' a)
    (hholds : ∀ members a, M members a → ∀ f ∈ form.fields, f.Holds members) {a : α} :
    form.locate s >>= build = .ok a ↔ ∃ members, Record form.names (leastOf form.fields) s members ∧ M members a := by
  rw [bind_eq_ok_iff]
  simp only [hbuild]
  constructor
  · rintro ⟨found, hfound, h⟩
    obtain ⟨members, hrecord, hvalues⟩ := record_of_locate hnames hfound
    exact ⟨members, hrecord, hsame hvalues h⟩
  · rintro ⟨members, hrecord, h⟩
    obtain ⟨found, hfound⟩ := exists_locate hnames hrecord (hholds members a h)
    obtain ⟨members', hrecord', hvalues⟩ := record_of_locate hnames hfound
    obtain rfl := hrecord.unique hrecord'
    exact ⟨found, hfound, hsame (fun name hname => (hvalues name hname).symm) h⟩

end Form

end SupplyTrail.Json
