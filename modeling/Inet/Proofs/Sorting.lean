/-
Inet/Proofs/Sorting.lean

Texts of addresses and of networks in order.

The order is total and only equal values are equal in it, so that a list has one
ascending permutation, whatever it was sorted by: of two values that compare
equal nobody can tell which came first.  All else that is said of the sorted
values is read off them or off the set of the values (`Sorted.IsOf`), and the
answer for a list is the answer for any permutation of it (`Sorted.IsOf.eq`).

The values are read from texts, and a text is read as a value exactly if its
canonical form is the text of the value.  So neither the order of the texts nor
any superfluous zeros in them play a part: the answer is a matter of the
canonical forms alone,

    items'.map canonical ~ items.map canonical   then   the same answer.

A text that is not read ends the reading.  The first such text makes up the
whole answer, and the one record (`SortsTexts`).
-/
import Inet.Proofs.Json.Decoding
import Inet.Proofs.Order
import Mathlib.Data.Finset.Card
import Mathlib.Data.List.Perm.Basic

namespace Inet

open Text
open Log (Record)

/-! ### Values in order -/

section Values

variable {α : Type} {values values' : List α} {s s' : Sorted α}

/-- All that is said of the sorted values is true of `values`. -/
structure Sorted.IsOf [LE α] [DecidableEq α] (s : Sorted α) (values : List α) : Prop where
  perm : s.values.Perm values
  ascending : s.values.Pairwise (· ≤ ·)
  distinct_eq : s.distinct = values.toFinset.card
  min_eq : s.min = s.values.head?
  max_eq : s.max = s.values.getLast?

theorem nodup_eraseDups [BEq α] [LawfulBEq α] (values : List α) : values.eraseDups.Nodup := by
  cases values with
  | nil => simp
  | cons a rest =>
    -- the elements behind the first are thinned out and then treated likewise
    rw [List.eraseDups_cons, List.nodup_cons]
    exact ⟨by simp, nodup_eraseDups _⟩
termination_by values.length
decreasing_by
  rw [List.length_cons]
  exact Nat.lt_succ_of_le (List.length_filter_le _ _)

theorem length_eraseDups [DecidableEq α] (values : List α) :
    values.eraseDups.length = values.toFinset.card := by
  rw [← List.toFinset_card_of_nodup (nodup_eraseDups values)]
  congr 1
  ext a
  simp

variable [LE α] [Std.IsLinearOrder α]

/-- A list has one ascending permutation. -/
theorem eq_of_perm_of_ascending (hperm : values.Perm values') (h : values.Pairwise (· ≤ ·))
    (h' : values'.Pairwise (· ≤ ·)) : values = values' :=
  hperm.eq_of_pairwise (fun _ _ _ _ => Std.le_antisymm) h h'

theorem min?_eq_head?_of_perm [Min α] [Std.LawfulOrderMin α] (hperm : values'.Perm values)
    (h : values'.Pairwise (· ≤ ·)) : values.min? = values'.head? := by
  cases values' with
  | nil => rw [List.nil_perm.1 hperm]; rfl
  | cons a rest =>
    rw [List.head?_cons, List.min?_eq_some_iff]
    refine ⟨hperm.mem_iff.1 List.mem_cons_self, ?_⟩
    intro b hb
    rcases List.mem_cons.1 (hperm.mem_iff.2 hb) with rfl | hb
    · exact Std.le_refl _
    · exact (List.pairwise_cons.1 h).1 b hb

theorem max?_eq_getLast?_of_perm [Max α] [Std.LawfulOrderMax α] (hperm : values'.Perm values)
    (h : values'.Pairwise (· ≤ ·)) : values.max? = values'.getLast? := by
  rcases List.eq_nil_or_concat values' with rfl | ⟨front, a, rfl⟩
  · rw [List.nil_perm.1 hperm]; rfl
  · rw [List.concat_eq_append] at hperm h ⊢
    rw [List.getLast?_concat, List.max?_eq_some_iff]
    refine ⟨hperm.mem_iff.1 (by simp), ?_⟩
    intro b hb
    rcases List.mem_append.1 (hperm.mem_iff.2 hb) with hb | hb
    · exact (List.pairwise_append.1 h).2.2 b hb a List.mem_cons_self
    · rw [List.mem_singleton.1 hb]
      exact Std.le_refl _

variable [DecidableEq α]

/-- Permutations of each other are in order in one way. -/
theorem Sorted.IsOf.eq (h : s.IsOf values) (h' : s'.IsOf values') (hperm : values.Perm values') :
    s = s' := by
  have hvalues : s.values = s'.values :=
    eq_of_perm_of_ascending ((h.perm.trans hperm).trans h'.perm.symm) h.ascending h'.ascending
  have hdistinct : s.distinct = s'.distinct := by
    rw [h.distinct_eq, h'.distinct_eq, List.toFinset_eq_of_perm _ _ hperm]
  have hmin : s.min = s'.min := by
    rw [h.min_eq, h'.min_eq, hvalues]
  have hmax : s.max = s'.max := by
    rw [h.max_eq, h'.max_eq, hvalues]
  cases s
  cases s'
  rw [mk.injEq]
  exact ⟨hvalues, hdistinct, hmin, hmax⟩

theorem Sorted.isOf_ofList [Ord α] [Std.LawfulOrderOrd α] [Min α] [Std.LawfulOrderMin α] [Max α]
    [Std.LawfulOrderMax α] (values : List α) : (ofList values).IsOf values := by
  have hperm : (ofList values).values.Perm values := List.mergeSort_perm _ _
  have htrans (a b c : α) : (compare a b).isLE → (compare b c).isLE → (compare a c).isLE := by
    simp only [Std.isLE_compare]
    exact Std.le_trans
  have htotal (a b : α) : (compare a b).isLE || (compare b a).isLE := by
    rw [Bool.or_eq_true, Std.isLE_compare, Std.isLE_compare]
    exact Std.le_total
  have hascending : (ofList values).values.Pairwise (· ≤ ·) :=
    (List.pairwise_mergeSort htrans htotal values).imp Std.isLE_compare.1
  exact {
    perm := hperm
    ascending := hascending
    distinct_eq := length_eraseDups values
    min_eq := min?_eq_head?_of_perm hperm hascending
    max_eq := max?_eq_getLast?_of_perm hperm hascending }

end Values

/-! ### Networks are in a linear order -/

instance : Std.IsLinearOrder Network := .of_ord

instance : Std.LawfulOrderMax Network :=
  .of_max_le_iff
    (by
      intro m n bound
      show (if m ≤ n then n else m) ≤ bound ↔ m ≤ bound ∧ n ≤ bound
      split_ifs with h
      · exact ⟨fun hn => ⟨Std.le_trans h hn, hn⟩, And.right⟩
      · exact ⟨fun hm => ⟨hm, Std.le_trans (Std.le_of_not_ge h) hm⟩, And.left⟩)
    (by
      intro m n
      show (if m ≤ n then n else m) = m ∨ (if m ≤ n then n else m) = n
      split <;> simp)

/-! ### Texts in order -/

section Texts

variable {ε α : Type}

/-- All that is said of the sorted values is true of `values`, and of the texts `items` that these
are read from. -/
structure Sorted.IsOfTexts [LE α] (s : Sorted α) (text : α → String) (items : List String)
    (values : List α) : Prop where
  written : values.map text = items.map canonical
  perm : s.values.Perm values
  ascending : s.values.Pairwise (· ≤ ·)
  /-- Nothing else that ascends is a permutation of the values. -/
  unique : ∀ other : List α, other.Perm values → other.Pairwise (· ≤ ·) → other = s.values
  distinct_eq : s.distinct = (values.map text).toFinset.card
  min_eq : s.min = s.values.head?
  max_eq : s.max = s.values.getLast?
  min_eq_none_iff : s.min = none ↔ items = []
  max_eq_none_iff : s.max = none ↔ items = []

/-- Texts are sorted as the values that they are read as. -/
structure SortsTexts [LE α] (sort : List String → Attempt Failure (Sorted α))
    (read : String → Except ε α) (text : α → String) (failure : ε → Failure)
    (record : String → ε → Record) : Prop where
  /-- If all are read, the answer is that for the values, and it is the same for all texts with
  these canonical forms, in any order. -/
  accepted : ∀ items values, List.Forall₂ (fun item value => read item = .ok value) items values →
    ∃ s, sort items = .ok s ∧ s.IsOfTexts text items values
      ∧ ∀ items', (items'.map canonical).Perm (items.map canonical) → sort items' = .ok s
  /-- If some are not, the first of them is to blame, and is all that is reported. -/
  rejected : ∀ items, (∃ item ∈ items, ∀ value, read item ≠ .ok value) →
    ∃ before item after error, items = before ++ item :: after
      ∧ (∀ t ∈ before, ∃ value, read t = .ok value) ∧ read item = .error error
      ∧ sort items = ⟨.error (failure error), [record item error]⟩

variable {read : String → Except ε α} {text : α → String} {p : α → Prop}
  {items items' : List String} {values : List α}

-- a text is read as a value exactly if its canonical form is the text of the value
variable (hread : ∀ t v, read t = .ok v ↔ p v ∧ canonical t = text v)
include hread

/-- The values of texts are written as the canonical forms of these. -/
theorem map_text_of_forall₂
    (h : List.Forall₂ (fun item value => read item = .ok value) items values) :
    values.map text = items.map canonical := by
  rw [← List.forall₂_eq_eq_eq, List.forall₂_map_left_iff, List.forall₂_map_right_iff]
  exact h.flip.imp fun v t ht => ((hread t v).1 ht).2.symm

/-- Texts with the same canonical forms are read as the same values, in some other order. -/
theorem exists_perm_of_canonical
    (h : List.Forall₂ (fun item value => read item = .ok value) items values)
    (hperm : (items'.map canonical).Perm (items.map canonical)) :
    ∃ values', List.Forall₂ (fun item value => read item = .ok value) items' values'
      ∧ values'.Perm values := by
  have hforms : List.Forall₂ (fun form v => p v ∧ form = text v) (items.map canonical) values := by
    rw [List.forall₂_map_left_iff]
    exact h.imp fun t v => (hread t v).1
  obtain ⟨values', hvalues', hperm'⟩ := List.perm_comp_forall₂ hperm hforms
  rw [List.forall₂_map_left_iff] at hvalues'
  exact ⟨values', hvalues'.imp fun t v => (hread t v).2, hperm'⟩

/-- Different values that are read are written differently. -/
theorem card_toFinset_map_text [DecidableEq α]
    (h : List.Forall₂ (fun item value => read item = .ok value) items values) :
    values.toFinset.card = (values.map text).toFinset.card := by
  have hvalue {u : α} (hu : u ∈ values.toFinset) : ∃ t, read t = .ok u := by
    obtain ⟨t, -, ht⟩ := exists_mem_of_mapM_eq_ok (mapM_eq_ok_iff.2 h) (List.mem_toFinset.1 hu)
    exact ⟨t, ht⟩
  have hinj : Set.InjOn text values.toFinset := by
    intro v hv w hw heq
    obtain ⟨t, ht⟩ := hvalue hv
    obtain ⟨t', ht'⟩ := hvalue hw
    -- either text is read as either value
    have hboth : read t = .ok w :=
      (hread t w).2 ⟨((hread t' w).1 ht').1, ((hread t v).1 ht).2.trans heq⟩
    exact Except.ok.inj (ht.symm.trans hboth)
  have himage : (values.map text).toFinset = values.toFinset.image text := by
    ext t
    simp
  rw [himage, Finset.card_image_of_injOn hinj]

variable [Ord α] [LE α] [Std.LawfulOrderOrd α] [Std.IsLinearOrder α] [DecidableEq α] [Min α]
  [Std.LawfulOrderMin α] [Max α] [Std.LawfulOrderMax α]

theorem isOfTexts_ofList
    (h : List.Forall₂ (fun item value => read item = .ok value) items values) :
    (Sorted.ofList values).IsOfTexts text items values := by
  have hof := Sorted.isOf_ofList values
  have hempty : (Sorted.ofList values).values = [] ↔ items = [] := by
    rw [← List.length_eq_zero_iff, ← List.length_eq_zero_iff, hof.perm.length_eq, h.length_eq]
  exact {
    written := map_text_of_forall₂ hread h
    perm := hof.perm
    ascending := hof.ascending
    unique := fun _ hperm hasc =>
      eq_of_perm_of_ascending (hperm.trans hof.perm.symm) hasc hof.ascending
    distinct_eq := hof.distinct_eq.trans (card_toFinset_map_text hread h)
    min_eq := hof.min_eq
    max_eq := hof.max_eq
    min_eq_none_iff := by rw [hof.min_eq, List.head?_eq_none_iff, hempty]
    max_eq_none_iff := by rw [hof.max_eq, List.getLast?_eq_none_iff, hempty] }

/-- Any reader that reads canonical forms is sorted by. -/
theorem sortsTexts_of_mapM {sort : List String → Attempt Failure (Sorted α)}
    {failure : ε → Failure} {record : String → ε → Record}
    (hsort : ∀ items, sort items
      = (items.mapM fun item => Attempt.recording (read item) (record item)).mapError failure
        >>= fun values => .ok (.ofList values)) :
    SortsTexts sort read text failure record := by
  have hok {items values}
      (h : List.Forall₂ (fun item value => read item = .ok value) items values) :
      sort items = .ok (.ofList values) := by
    have hmapM : (items.mapM fun item => Attempt.recording (read item) (record item))
        = .ok values :=
      Attempt.mapM_eq_ok_iff.2 (h.imp fun _ _ => Attempt.recording_eq_ok_iff.2)
    rw [hsort, hmapM]
    rfl
  constructor
  · intro items values h
    refine ⟨.ofList values, hok h, isOfTexts_ofList hread h, ?_⟩
    intro items' hperm
    obtain ⟨values', h', hperm'⟩ := exists_perm_of_canonical hread h hperm
    rw [hok h', (Sorted.isOf_ofList values').eq (Sorted.isOf_ofList values) hperm']
  · rintro items ⟨item, hitem, hrejected⟩
    rcases hmapM : items.mapM read with error | values
    · obtain ⟨before, item, after, rfl, hbefore, herror⟩ := mapM_eq_error_iff.1 hmapM
      have hrecorded : Attempt.recording (read item) (record item)
          = ⟨.error error, [record item error]⟩ := by
        rw [herror]
        rfl
      have hsilent : ∀ t ∈ before, ∃ value, Attempt.recording (read t) (record t) = .ok value :=
        fun t ht => (hbefore t ht).imp fun _ => Attempt.recording_eq_ok_iff.2
      refine ⟨before, item, after, error, rfl, hbefore, herror, ?_⟩
      rw [hsort, Attempt.mapM_of_error hsilent hrecorded]
      rfl
    · have hboth : List.Forall₂ (fun item value => (∃ v, read item = .ok v) ∧ read item = .ok value)
          items values :=
        (mapM_eq_ok_iff.1 hmapM).imp fun item value h => ⟨⟨value, h⟩, h⟩
      obtain ⟨value, hvalue⟩ := ((List.forall₂_and_left _ _).1 hboth).1 item hitem
      exact absurd hvalue (hrejected value)

end Texts

/-! ### Addresses and networks in order -/

theorem sortAddresses_eq (items : List String) :
    Query.sortAddresses items
      = (items.mapM Address.parse).mapError .address >>= fun addrs => .ok (.ofList addrs) := rfl

theorem sortNetworks_eq (items : List String) :
    Query.sortNetworks items
      = (items.mapM Network.parse).mapError .network >>= fun networks => .ok (.ofList networks) :=
  rfl

/-- **Sorting is canonical**: texts of addresses, or of networks, are sorted as the one ascending
permutation of what they are read as, with equal ones kept and counted once, and with the least and
the greatest at its ends.  Neither the order of the texts nor superfluous zeros in them change the
answer.  If some text is not read, the first such is all that is reported. -/
theorem sorting_is_canonical :
    SortsTexts Query.sortAddresses Address.read Address.text .address .address
      ∧ SortsTexts Query.sortNetworks Network.read Network.text .network .network := by
  constructor
  · have hread (t : String) (addr : Address) :
        Address.read t = .ok addr ↔ True ∧ canonical t = addr.text := by
      rw [true_and, Address.read_eq_ok_iff_canonical]
    exact sortsTexts_of_mapM hread sortAddresses_eq
  · exact sortsTexts_of_mapM (fun _ _ => Network.read_eq_ok_iff_canonical) sortNetworks_eq

/-- Two texts of one address and one of a smaller are sorted, and likewise if they are respelled
and moved about; of two networks, the second is to blame for its prefix. -/
theorem sorting_is_canonical_respelled :
    (∃ s, Query.sortAddresses ["10.0.0.2", "9.8.7.6", "10.0.0.2"] = .ok s
      ∧ s.values = [⟨9, 8, 7, 6⟩, ⟨10, 0, 0, 2⟩, ⟨10, 0, 0, 2⟩] ∧ s.distinct = 2
      ∧ Query.sortAddresses ["010.00.0.2", "10.0.0.02", "9.8.7.006"] = .ok s)
    ∧ Query.sortNetworks ["10.0.0.0/8", "10.0.0.0/33"]
      = ⟨.error (.network (.prefixOverflow 33)),
        [.network "10.0.0.0/33" (.prefixOverflow 33)]⟩ := by
  constructor
  · have hreads : List.Forall₂ (fun item addr => Address.read item = .ok addr)
        ["10.0.0.2", "9.8.7.6", "10.0.0.2"] [⟨10, 0, 0, 2⟩, ⟨9, 8, 7, 6⟩, ⟨10, 0, 0, 2⟩] := by
      simp only [Address.read_eq]
      decide
    obtain ⟨s, hs, hof, hrespelled⟩ := sorting_is_canonical.1.accepted _ _ hreads
    have hvalues : s.values = [⟨9, 8, 7, 6⟩, ⟨10, 0, 0, 2⟩, ⟨10, 0, 0, 2⟩] :=
      (hof.unique _ (by decide) (by decide)).symm
    exact ⟨s, hs, hvalues, hof.distinct_eq.trans (by decide), hrespelled _ (by decide)⟩
  · have hread : Network.read "10.0.0.0/8" = .ok ⟨⟨10, 0, 0, 0⟩, 8⟩ := by
      rw [Network.read_eq]
      decide
    have hlong : Network.read "10.0.0.0/33" = .error (.prefixOverflow 33) := by
      rw [Network.read_eq]
      decide
    obtain ⟨before, item, after, error, hitems, -, herror, hsort⟩ :=
      sorting_is_canonical.2.rejected ["10.0.0.0/8", "10.0.0.0/33"]
        ⟨"10.0.0.0/33", by simp, by simp [hlong]⟩
    have hitem : item = "10.0.0.0/33" := by
      have hmem : item ∈ ["10.0.0.0/8", "10.0.0.0/33"] := by simp [hitems]
      rcases List.mem_cons.1 hmem with rfl | hmem
      · rw [hread] at herror
        contradiction
      · exact List.mem_singleton.1 hmem
    obtain rfl : error = .prefixOverflow 33 := by
      rw [hitem, hlong] at herror
      exact (Except.error.inj herror).symm
    rw [hsort, hitem]

end Inet
