import SupplyTrail.Proofs.Json.Forms
import SupplyTrail.Proofs.Ledger.Records
/-!
# Growth — what the ledger does to its state

Applying a call registers a product that was not there, records an event of one that was, or changes nothing.  So the
state only grows: what is recorded stays as it is, and the events of each product are listed in the order of
recording. If only drafted calls are applied, everything that is recorded can be read again, and no event of a product
is older than its registration.
-/
namespace SupplyTrail.Rehearsal.Store

open Client (registerArgs appendArgs)

/-! ## Values of keys -/

theorem valueOf?_put {V : Type} (key k : String) (value : V) (entries : List (String × V)) :
    valueOf? k (put key value entries) = if key = k then some value else valueOf? k entries := by
  rw [put, valueOf?]
  split
  · rfl
  · rename_i hne
    induction entries with
    | nil => rfl
    | cons e rest ih =>
      obtain ⟨l, v⟩ := e
      rw [List.filter_cons]
      split
      · rw [valueOf?, valueOf?, ih]
      · rename_i hdrop
        have hl : l = key := by simpa using hdrop
        rw [valueOf?, ih, if_neg fun h => hne (hl.symm.trans h)]

theorem valueOf?_put_self {V : Type} (key : String) (value : V) (entries : List (String × V)) :
    valueOf? key (put key value entries) = some value := by
  rw [valueOf?_put, if_pos rfl]

theorem valueOf?_put_of_ne {V : Type} {key k : String} (h : key ≠ k) (value : V) (entries : List (String × V)) :
    valueOf? k (put key value entries) = valueOf? k entries := by
  rw [valueOf?_put, if_neg h]

/-! ## One application -/

/-- The product that a call registers. -/
def registering (c : ContractCall) : String := textArg c.args "id"

/-- The product whose event a call records. -/
def appending (c : ContractCall) : String := textArg c.args "product_id"

def withProduct (s : Store) (c : ContractCall) : Store :=
  { s with
    products := put (registering c) (productRecord c.args) s.products
    eventIds := put (registering c) [] s.eventIds }

def withEvent (s : Store) (c : ContractCall) : Store :=
  s.record (appending c) (eventRecord s.events.length c.args)

theorem apply_register {c : ContractCall} (hfunction : c.function = "register_product") (s : Store) :
    s.apply c = if (valueOf? (registering c) s.products).isSome then (refuse 1, s)
      else (.ok (.string (registering c)), s.withProduct c) := by
  obtain ⟨id, function, args⟩ := c
  subst hfunction
  rfl

theorem apply_append {c : ContractCall} (hfunction : c.function = "add_tracking_event") (s : Store) :
    s.apply c = if (valueOf? (appending c) s.products).isSome then
        (.ok (.word (UInt64.ofNat s.events.length)), s.withEvent c)
      else (refuse 2, s) := by
  obtain ⟨id, function, args⟩ := c
  subst hfunction
  rfl

/-- **What applying a call does.** -/
theorem apply_cases (s : Store) (c : ContractCall) :
    (s.apply c).2 = s ∨
    (c.function = "register_product" ∧ valueOf? (registering c) s.products = none ∧ (s.apply c).2 = s.withProduct c) ∨
    (c.function = "add_tracking_event" ∧ (valueOf? (appending c) s.products).isSome ∧
      (s.apply c).2 = s.withEvent c) := by
  by_cases hregister : c.function = "register_product"
  · rw [apply_register hregister]
    split
    · exact .inl rfl
    · rename_i hnew
      exact .inr (.inl ⟨hregister, by simpa using hnew, rfl⟩)
  by_cases happend : c.function = "add_tracking_event"
  · rw [apply_append happend]
    split
    · rename_i hknown
      exact .inr (.inr ⟨happend, hknown, rfl⟩)
    · exact .inl rfl
  · refine .inl ?_
    unfold apply
    split
    · rename_i h
      exact absurd h hregister
    · rename_i h
      exact absurd h happend
    · rfl

theorem apply_register_ok {s : Store} {c : ContractCall} {value : Json} (hfunction : c.function = "register_product")
    (h : (s.apply c).1 = .ok value) :
    valueOf? (registering c) s.products = none ∧ (s.apply c).2 = s.withProduct c := by
  rw [apply_register hfunction] at h ⊢
  split at h
  · cases h
  · rename_i hnew
    rw [if_neg hnew]
    exact ⟨by simpa using hnew, rfl⟩

theorem apply_append_ok {s : Store} {c : ContractCall} {value : Json} (hfunction : c.function = "add_tracking_event")
    (h : (s.apply c).1 = .ok value) :
    (valueOf? (appending c) s.products).isSome ∧ (s.apply c).2 = s.withEvent c := by
  rw [apply_append hfunction] at h ⊢
  split at h
  · rename_i hknown
    rw [if_pos hknown]
    exact ⟨hknown, rfl⟩
  · cases h

/-! ## Growth -/

/-- The event is of this product. -/
def IsOf (id : String) (event : Json) : Bool := textArg event "product_id" == id

/-- The events recorded for a product, in the order of recording. -/
def trail (s : Store) (id : String) : List Json := s.events.filter (IsOf id)

/-- The numbers listed for a product. -/
def listed (s : Store) (id : String) : List Nat := (valueOf? id s.eventIds).getD []

/-- Every number of an event fits in a word. -/
def Fits (s : Store) : Prop := s.events.length ≤ UInt64.size

/-- A product is known if its events are listed, the list of a product has exactly its events in order, and every number
fits in a word. -/
structure Tidy (s : Store) : Prop where
  known : ∀ id, (valueOf? id s.products).isSome ↔ (valueOf? id s.eventIds).isSome
  listed : ∀ id, (s.listed id).map (s.events[·]?) = (s.trail id).map some
  fits : s.Fits

/-- Everything that was recorded is there as it was. -/
structure Extends (s t : Store) : Prop where
  products : ∀ id v, valueOf? id s.products = some v → valueOf? id t.products = some v
  eventIds : ∀ id ids, valueOf? id s.eventIds = some ids → ∃ more, valueOf? id t.eventIds = some (ids ++ more)
  events : s.events <+: t.events

theorem Extends.refl (s : Store) : Extends s s :=
  ⟨fun _ _ h => h, fun _ ids h => ⟨[], by rw [List.append_nil, h]⟩, List.prefix_refl _⟩

theorem Extends.trans {s t u : Store} (h : Extends s t) (h' : Extends t u) : Extends s u := by
  refine ⟨fun id v hv => h'.products id v (h.products id v hv), fun id ids hids => ?_, h.events.trans h'.events⟩
  obtain ⟨more, hmore⟩ := h.eventIds id ids hids
  obtain ⟨more', hmore'⟩ := h'.eventIds id _ hmore
  exact ⟨more ++ more', by rw [hmore', List.append_assoc]⟩

/-- Stores that extend each other have the same events. -/
theorem Extends.trail_eq {s t : Store} (h : Extends s t) (h' : Extends t s) (id : String) :
    s.trail id = t.trail id := by
  have hevents : s.events = t.events := h.events.eq_of_length (Nat.le_antisymm h.events.length_le h'.events.length_le)
  rw [trail, hevents, trail]

theorem Extends.event {s t : Store} (h : Extends s t) {n : Nat} {v : Json} (hv : s.events[n]? = some v) :
    t.events[n]? = some v := by
  obtain ⟨rest, hrest⟩ := h.events
  have hn : n < s.events.length := (List.getElem?_eq_some_iff.1 hv).1
  rw [← hrest, List.getElem?_append_left hn, hv]

theorem Tidy.lt_of_listed {s : Store} (h : s.Tidy) {id : String} {n : Nat} (hn : n ∈ s.listed id) :
    n < s.events.length := by
  have hmem : s.events[n]? ∈ (s.listed id).map (s.events[·]?) := List.mem_map_of_mem hn
  rw [h.listed id] at hmem
  obtain ⟨v, -, hv⟩ := List.mem_map.1 hmem
  exact (List.getElem?_eq_some_iff.1 hv.symm).1

theorem Tidy.eventIds_of_unknown {s : Store} (h : s.Tidy) {id : String} (hid : valueOf? id s.products = none) :
    valueOf? id s.eventIds = none := by
  rw [← Option.not_isSome_iff_eq_none, ← h.known id, hid]
  exact Bool.false_ne_true

theorem Tidy.trail_of_unknown {s : Store} (h : s.Tidy) {id : String} (hid : valueOf? id s.products = none) :
    s.trail id = [] := by
  have hlisted : s.listed id = [] := by rw [Store.listed, h.eventIds_of_unknown hid, Option.getD_none]
  have htrail := h.listed id
  rw [hlisted, List.map_nil] at htrail
  exact List.map_eq_nil_iff.1 htrail.symm

theorem tidy_empty : empty.Tidy :=
  ⟨fun _ => Iff.rfl, fun _ => rfl, Nat.zero_le _⟩

theorem textArg_eventRecord (number : Nat) (args : Json) :
    textArg (eventRecord number args) "product_id" = textArg args "product_id" := by
  have hmember : (eventRecord number args).member? "product_id" = some (arg args "product_id") := by
    rw [eventRecord_eq]
    simp [Json.member?, valueOf?]
  rw [textArg, hmember, textArg, arg]
  cases args.member? "product_id" with
  | none => rfl
  | some x => rfl

theorem extends_withProduct {s : Store} (h : s.Tidy) {c : ContractCall}
    (hnew : valueOf? (registering c) s.products = none) :
    Extends s (s.withProduct c) := by
  refine ⟨fun id v hv => ?_, fun id ids hids => ?_, List.prefix_refl _⟩
  · have hne : registering c ≠ id := fun he => by rw [he, hv] at hnew; cases hnew
    rw [withProduct, valueOf?_put_of_ne hne, hv]
  · have hne : registering c ≠ id := fun he => by
      have hknown := (h.known id).2 (by rw [hids]; rfl)
      rw [← he, hnew] at hknown
      cases hknown
    exact ⟨[], by rw [withProduct, valueOf?_put_of_ne hne, hids, List.append_nil]⟩

theorem tidy_withProduct {s : Store} (h : s.Tidy) {c : ContractCall}
    (hnew : valueOf? (registering c) s.products = none) :
    (s.withProduct c).Tidy := by
  refine ⟨fun id => ?_, fun id => ?_, h.fits⟩
  · simp only [withProduct, valueOf?_put]
    split
    · exact Iff.rfl
    · exact h.known id
  · have hlisted : (s.withProduct c).listed id = s.listed id := by
      simp only [listed, withProduct, valueOf?_put]
      split
      · rename_i hid
        rw [h.eventIds_of_unknown (hid ▸ hnew)]
        rfl
      · rfl
    rw [hlisted]
    exact h.listed id

theorem extends_withEvent (s : Store) (c : ContractCall) : Extends s (s.withEvent c) := by
  refine ⟨fun _ _ hv => hv, fun id ids hids => ?_, List.prefix_append _ _⟩
  simp only [withEvent, record, valueOf?_put]
  split
  · rename_i hid
    rw [hid, hids]
    exact ⟨_, rfl⟩
  · exact ⟨[], by rw [List.append_nil, hids]⟩

theorem trail_withEvent (s : Store) (c : ContractCall) (id : String) : (s.withEvent c).trail id =
    s.trail id ++ if appending c = id then [eventRecord s.events.length c.args] else [] := by
  have hof : IsOf id (eventRecord s.events.length c.args) = (appending c == id) := by
    rw [IsOf, textArg_eventRecord, appending]
  rw [trail, trail, withEvent, record, List.filter_append, List.filter_cons, hof]
  by_cases hid : appending c = id
  · simp [hid]
  · simp [hid]

theorem listed_withEvent (s : Store) (c : ContractCall) (id : String) : (s.withEvent c).listed id =
    s.listed id ++ if appending c = id then [s.events.length] else [] := by
  simp only [listed, withEvent, record, valueOf?_put]
  by_cases hid : appending c = id
  · rw [if_pos hid, if_pos hid, hid, Option.getD_some]
  · rw [if_neg hid, if_neg hid, List.append_nil]

theorem tidy_withEvent {s : Store} (h : s.Tidy) {c : ContractCall} (hknown : (valueOf? (appending c) s.products).isSome)
    (hfits : (s.withEvent c).Fits) : (s.withEvent c).Tidy := by
  refine ⟨fun id => ?_, fun id => ?_, hfits⟩
  · simp only [withEvent, record, valueOf?_put]
    split
    · rename_i hid
      rw [← hid, hknown]
      exact Iff.rfl
    · exact h.known id
  · have hold : (s.listed id).map ((s.withEvent c).events[·]?) = (s.listed id).map (s.events[·]?) :=
      List.map_congr_left fun n hn => List.getElem?_append_left (h.lt_of_listed hn)
    rw [listed_withEvent, trail_withEvent, List.map_append, List.map_append, hold, h.listed id]
    split
    · exact congrArg _ (congrArg (· :: []) List.getElem?_concat_length)
    · rfl

/-- **The state only grows**: applying a call keeps what was recorded, and the state stays tidy if it fits. -/
theorem Tidy.apply {s : Store} (h : s.Tidy) (c : ContractCall) :
    Extends s (s.apply c).2 ∧ ((s.apply c).2.Fits → (s.apply c).2.Tidy) := by
  rcases apply_cases s c with heq | ⟨-, hnew, heq⟩ | ⟨-, hknown, heq⟩
  · rw [heq]
    exact ⟨.refl s, fun _ => h⟩
  · rw [heq]
    exact ⟨extends_withProduct h hnew, fun _ => tidy_withProduct h hnew⟩
  · rw [heq]
    exact ⟨extends_withEvent s c, tidy_withEvent h hknown⟩

/-! ## What only drafted calls record -/

/-- A product is registered with this record. -/
def Registered (s : Store) (p : ProductId) (record : ProductRecord) : Prop :=
  ∃ value, valueOf? p.text s.products = some value ∧ ProductRecord.decode value.toSource = .ok record

theorem Registered.mono {s t : Store} (h : Extends s t) {p : ProductId} {record : ProductRecord}
    (hr : s.Registered p record) : t.Registered p record := by
  obtain ⟨value, hvalue, hdecode⟩ := hr
  exact ⟨value, h.products _ _ hvalue, hdecode⟩

theorem Registered.unique {s : Store} {p : ProductId} {record record' : ProductRecord} (h : s.Registered p record)
    (h' : s.Registered p record') : record = record' := by
  obtain ⟨value, hvalue, hdecode⟩ := h
  obtain ⟨value', hvalue', hdecode'⟩ := h'
  rw [hvalue] at hvalue'
  cases hvalue'
  rw [hdecode] at hdecode'
  exact Except.ok.inj hdecode'

theorem registering_of_drafted {c : ContractCall} {d : ProductDetails} {owner : String} {time : UInt64}
    (h : c.args.outline = (registerArgs d owner time).outline) : registering c = d.id.text := by
  have hargs := Json.eq_of_outline_eq (noReal_registerArgs d owner time) h
  rw [registering, hargs]
  rfl

theorem registered_withProduct {c : ContractCall} {d : ProductDetails} {owner : String} {time : UInt64}
    (h : c.args.outline = (registerArgs d owner time).outline) (s : Store) :
    (s.withProduct c).Registered d.id (d.recorded owner time) := by
  have hvalue : valueOf? d.id.text (s.withProduct c).products = some (productRecord c.args) := by
    rw [withProduct, registering_of_drafted h]
    exact valueOf?_put_self _ _ _
  exact ⟨_, hvalue, decode_productRecord h⟩

/-- A call that a client may have drafted: a registration, or a checked event of a registered product that is not older
than its registration.  Doubles in the metadata may be others. -/
inductive Drawn (s : Store) (c : ContractCall) : Prop
  | register {d : ProductDetails} {owner : String} {time : UInt64} (hfunction : c.function = "register_product")
      (hargs : c.args.outline = (registerArgs d owner time).outline) : Drawn s c
  | append {e : Event} {actor : String} {record : ProductRecord} (hfunction : c.function = "add_tracking_event")
      (hargs : c.args.outline = (appendArgs e actor).outline) (hcheck : Event.check e = .ok e)
      (hkind : e.kind ≠ .register)
      (hproduct : s.Registered e.product record) (htime : record.createdAt ≤ e.time) : Drawn s c

theorem Drawn.mono {s t : Store} (h : Extends s t) {c : ContractCall} : s.Drawn c → t.Drawn c
  | .register hfunction hargs => .register hfunction hargs
  | .append hfunction hargs hcheck hkind hproduct htime => .append hfunction hargs hcheck hkind (hproduct.mono h) htime

/-- An event that was read, of a registered product and not older than its registration. -/
def Readable (s : Store) (v : Json) : Prop :=
  ∃ e record, Event.parse v = .ok e ∧ e.kind ≠ .register ∧ textArg v "product_id" = e.product.text ∧
    s.Registered e.product record ∧ record.createdAt ≤ e.time

/-- Everything that is recorded can be read, and no event is older than its product's registration. -/
structure Sound (s : Store) : Prop where
  product : ∀ id v, valueOf? id s.products = some v →
    ∃ record, ProductRecord.decode v.toSource = .ok record ∧ record.id = ⟨id⟩
  event : ∀ v ∈ s.events, s.Readable v

theorem sound_empty : empty.Sound := ⟨fun _ _ h => (by cases h), fun _ h => (by cases h)⟩

theorem Readable.mono {s t : Store} (h : Extends s t) {v : Json} (hv : s.Readable v) : t.Readable v := by
  obtain ⟨e, record, hparse, hkind, hid, hproduct, htime⟩ := hv
  exact ⟨e, record, hparse, hkind, hid, hproduct.mono h, htime⟩

theorem textArg_of_arg {args : Json} {name s : String} (h : arg args name = .string s) : textArg args name = s := by
  unfold arg at h
  unfold textArg
  cases hmember : args.member? name with
  | none => rw [hmember] at h; cases h
  | some x => rw [hmember, Option.getD_some] at h; rw [h]

/-- **What drafted calls record can be read.** -/
theorem Sound.apply {s : Store} (h : s.Sound) (htidy : s.Tidy) {c : ContractCall} (hdrawn : s.Drawn c) :
    (s.apply c).2.Sound := by
  have hext := (htidy.apply c).1
  rcases apply_cases s c with heq | ⟨hfunction, hnew, heq⟩ | ⟨hfunction, hknown, heq⟩
  · rw [heq]
    exact h
  · rw [heq] at hext ⊢
    refine ⟨fun id v hv => ?_, fun v hv => (h.event v hv).mono hext⟩
    simp only [withProduct, valueOf?_put] at hv
    split at hv
    · rename_i hid
      cases hv
      cases hdrawn with
      | @register d owner time _ hargs =>
        have hd : d.id = ⟨id⟩ := by rw [← hid, registering_of_drafted hargs]
        exact ⟨_, decode_productRecord hargs, hd⟩
      | append hfunction' => exact absurd (hfunction.symm.trans hfunction') (by decide)
    · exact h.product id v hv
  · rw [heq] at hext ⊢
    refine ⟨h.product, fun v hv => ?_⟩
    rcases List.mem_append.1 hv with hv | hv
    · exact (h.event v hv).mono hext
    · rw [List.mem_singleton.1 hv]
      cases hdrawn with
      | register hfunction' => exact absurd (hfunction.symm.trans hfunction') (by decide)
      | @append e actor record _ hargs hcheck hkind hproduct htime =>
        obtain ⟨m, -, hparse⟩ := parse_eventRecord_like hargs hcheck s.events.length
        have hid : textArg c.args "product_id" = e.product.text :=
          textArg_of_arg (Json.outline_eq_string (arg_outline hargs "product_id"))
        exact ⟨_, record, hparse, hkind, by rw [textArg_eventRecord, hid], hproduct.mono hext, htime⟩

end SupplyTrail.Rehearsal.Store
