import SupplyTrail.Trail.History
/-!
# Order — histories are sorted by time and keep the given order among equal times
-/
namespace SupplyTrail

/-! ## Times -/

theorem toNat_max_time (a b : UInt64) : (max a b).toNat = max a.toNat b.toNat := by
  have hmax : max a b = if a ≤ b then b else a := rfl
  rw [hmax]
  split
  · rename_i h
    have := UInt64.le_iff_toNat_le.1 h
    omega
  · rename_i h
    have := mt UInt64.le_iff_toNat_le.2 h
    omega

theorem max_time_lt_iff {a b t : UInt64} : max a b < t ↔ a < t ∧ b < t := by
  rw [UInt64.lt_iff_toNat_lt, UInt64.lt_iff_toNat_lt, UInt64.lt_iff_toNat_lt, toNat_max_time]
  omega

theorem time_le_max_right (a b : UInt64) : b ≤ max a b := by
  rw [UInt64.le_iff_toNat_le, toNat_max_time]
  omega

/-! ## Sorting -/

/-- The same events in the order of their times, those of one time in the order in which they were given. -/
structure SortedByTime (given result : List Event) : Prop where
  perm : result.Perm given
  sorted : result.Pairwise fun a b => a.time ≤ b.time
  stable : ∀ t, result.filter (·.time = t) = given.filter (·.time = t)

theorem head_le_of_sorted {a b : Event} {rest : List Event} (h : (a :: rest).Pairwise fun a b => a.time ≤ b.time)
    (hb : b ∈ a :: rest) : a.time ≤ b.time := by
  rcases List.mem_cons.1 hb with rfl | hb
  · exact UInt64.le_refl _
  · exact (List.pairwise_cons.1 h).1 b hb

theorem mem_of_filter_eq {r r' : List Event} {a : Event}
    (h : r.filter (·.time = a.time) = r'.filter (·.time = a.time)) (ha : a ∈ r) : a ∈ r' := by
  have hmem : a ∈ r.filter (·.time = a.time) := List.mem_filter.2 ⟨ha, decide_eq_true rfl⟩
  rw [h] at hmem
  exact (List.mem_filter.1 hmem).1

/-- Events in the order of their times are given by those of each time. -/
theorem eq_of_sorted_of_filter {r r' : List Event} (hr : r.Pairwise fun a b => a.time ≤ b.time)
    (hr' : r'.Pairwise fun a b => a.time ≤ b.time)
    (h : ∀ t, r.filter (·.time = t) = r'.filter (·.time = t)) : r = r' := by
  induction r generalizing r' with
  | nil =>
    refine (List.eq_nil_iff_forall_not_mem.2 fun a ha => ?_).symm
    exact List.not_mem_nil (mem_of_filter_eq (h a.time).symm ha)
  | cons a rest ih =>
    have ha := mem_of_filter_eq (h a.time) List.mem_cons_self
    cases r' with
    | nil => cases ha
    | cons b rest' =>
      have hb := mem_of_filter_eq (h b.time).symm List.mem_cons_self
      have htime : a.time = b.time := UInt64.le_antisymm (head_le_of_sorted hr hb) (head_le_of_sorted hr' ha)
      have hheads := h a.time
      rw [List.filter_cons, List.filter_cons, if_pos (decide_eq_true rfl), if_pos (decide_eq_true htime.symm)] at hheads
      obtain rfl : a = b := (List.cons.inj hheads).1
      refine congrArg (a :: ·) (ih (List.pairwise_cons.1 hr).2 (List.pairwise_cons.1 hr').2 fun t => ?_)
      have hrest := h t
      rw [List.filter_cons, List.filter_cons] at hrest
      split at hrest
      · exact (List.cons.inj hrest).2
      · exact hrest

/-- **There is one such list.** -/
theorem SortedByTime.unique {given r r' : List Event} (h : SortedByTime given r) (h' : SortedByTime given r') :
    r = r' :=
  eq_of_sorted_of_filter h.sorted h'.sorted fun t => (h.stable t).trans (h'.stable t).symm

namespace History

variable {p : ProductId} {events : List Event}

theorem timeLe_trans (a b c : Event) (hab : decide (a.time ≤ b.time) = true) (hbc : decide (b.time ≤ c.time) = true) :
    decide (a.time ≤ c.time) = true :=
  decide_eq_true (UInt64.le_trans (of_decide_eq_true hab) (of_decide_eq_true hbc))

theorem timeLe_total (a b : Event) : (decide (a.time ≤ b.time) || decide (b.time ≤ a.time)) = true := by
  simp only [Bool.or_eq_true, decide_eq_true_eq]
  exact UInt64.le_total _ _

theorem sorted_ofEvents (p : ProductId) (events : List Event) :
    (ofEvents p events).events.Pairwise fun a b => a.time ≤ b.time := by
  have hsorted := List.pairwise_mergeSort timeLe_trans timeLe_total events
  exact hsorted.imp fun h => of_decide_eq_true h

/-- **A history is the stable sort of its events by time.** -/
theorem sortedByTime_ofEvents (p : ProductId) (events : List Event) :
    SortedByTime events (ofEvents p events).events := by
  have hperm : (ofEvents p events).events.Perm events := List.mergeSort_perm _ _
  refine ⟨hperm, sorted_ofEvents p events, fun t => ?_⟩
  -- events of one time are a sorted part of the given list, and the sort keeps such a part
  have hequal : (events.filter (·.time = t)).Pairwise fun a b => decide (a.time ≤ b.time) = true := by
    refine List.pairwise_of_forall_mem_list fun a ha b hb => decide_eq_true ?_
    rw [of_decide_eq_true (List.mem_filter.1 ha).2, of_decide_eq_true (List.mem_filter.1 hb).2]
    exact UInt64.le_refl t
  have hsub : (events.filter (·.time = t)).Sublist (ofEvents p events).events :=
    List.sublist_mergeSort timeLe_trans timeLe_total hequal List.filter_sublist
  have hfilter := hsub.filter (·.time = t)
  simp only [List.filter_filter, Bool.and_self] at hfilter
  exact (hfilter.eq_of_length (hperm.filter _).length_eq.symm).symm

theorem events_ofEvents (h : events.Pairwise fun a b => a.time ≤ b.time) : (ofEvents p events).events = events :=
  List.mergeSort_of_pairwise (h.imp fun hab => decide_eq_true hab)

theorem ofEvents_singleton (p : ProductId) (e : Event) : ofEvents p [e] = ⟨p, [e]⟩ :=
  congrArg (History.mk p) (events_ofEvents (p := p) (List.pairwise_singleton _ e))

/-- An event that is not later than any other comes first. -/
theorem head?_ofEvents {e : Event} (h : ∀ e' ∈ events, e.time ≤ e'.time) :
    (ofEvents p (e :: events)).first? = some e := by
  obtain ⟨hperm, hsorted, hstable⟩ := sortedByTime_ofEvents p (e :: events)
  rw [first?]
  cases hevents : (ofEvents p (e :: events)).events with
  | nil =>
    rw [hevents] at hperm
    cases hperm.length_eq
  | cons first rest =>
    rw [hevents] at hperm hsorted hstable
    have hmem : first ∈ e :: events := hperm.mem_iff.1 List.mem_cons_self
    have hle : first.time ≤ e.time := head_le_of_sorted hsorted (hperm.mem_iff.2 List.mem_cons_self)
    have hge : e.time ≤ first.time := by
      rcases List.mem_cons.1 hmem with h' | h'
      · rw [h']
        exact UInt64.le_refl _
      · exact h first h'
    have htime : first.time = e.time := UInt64.le_antisymm hle hge
    have hheads := hstable e.time
    rw [List.filter_cons, List.filter_cons, if_pos (decide_eq_true htime), if_pos (decide_eq_true rfl)] at hheads
    rw [List.head?_cons, (List.cons.inj hheads).1]

theorem le_lastTime {e : Event} (h : e ∈ events) : e.time ≤ (ofEvents p events).lastTime := by
  obtain ⟨hperm, hsorted, -⟩ := sortedByTime_ofEvents p events
  have hmem : e ∈ (ofEvents p events).events := hperm.mem_iff.2 h
  rw [lastTime, last?]
  cases hlast : (ofEvents p events).events.getLast? with
  | none =>
    rw [List.getLast?_eq_none_iff.1 hlast] at hmem
    cases hmem
  | some last =>
    obtain ⟨init, hinit⟩ := List.getLast?_eq_some_iff.1 hlast
    rw [hinit] at hmem hsorted
    rcases List.mem_append.1 hmem with hmem | hmem
    · exact (List.pairwise_append.1 hsorted).2.2 e hmem last (List.mem_singleton.2 rfl)
    · rw [List.mem_singleton.1 hmem]
      exact UInt64.le_refl _

end History

end SupplyTrail
