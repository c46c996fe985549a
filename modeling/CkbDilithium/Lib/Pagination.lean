import Mathlib.Tactic

/-!
# Reading a changing store page by page

A store holds entries with distinct ordered keys. A page is the first `limit` entries beyond a cursor
(`Store.page`); the next cursor is the last key of the page. The store may be another one at every
request. What is collected is then in strictly ascending order, and every entry that was there at every
request and does not lie beyond the cursor has been collected (`Collected`): one page keeps this
(`Collected.next`), and an empty page shows that nothing that stayed is missing (`Collected.last`).
-/

namespace CkbDilithium.Pagination

variable {κ α : Type} [LinearOrder κ]

/-- Entries in ascending order of their keys, no key twice. -/
structure Store (κ α : Type) [LinearOrder κ] where
  entries : List (κ × α)
  sorted : entries.Pairwise fun a b => a.1 < b.1

/-- The entry lies after the cursor; without a cursor every entry does. -/
def beyond (cursor : Option κ) (e : κ × α) : Bool := cursor.all fun key => key < e.1

/-- The first `limit` entries beyond the cursor. -/
def Store.page (store : Store κ α) (cursor : Option κ) (limit : Nat) : List (κ × α) :=
  (store.entries.filter (beyond cursor)).take limit

@[simp] theorem beyond_none (e : κ × α) : beyond none e = true := rfl

@[simp] theorem beyond_some {key : κ} {e : κ × α} : beyond (some key) e = true ↔ key < e.1 := by
  simp [beyond]

/-! ### One page -/

section Page

variable {store : Store κ α} {cursor : Option κ} {limit : Nat} {e last : κ × α}

theorem Store.page_sublist (store : Store κ α) (cursor : Option κ) (limit : Nat) :
    (store.page cursor limit).Sublist store.entries :=
  (List.take_sublist _ _).trans List.filter_sublist

theorem Store.page_sorted (store : Store κ α) (cursor : Option κ) (limit : Nat) :
    (store.page cursor limit).Pairwise fun a b => a.1 < b.1 :=
  store.sorted.sublist (store.page_sublist cursor limit)

theorem Store.mem_of_mem_page (h : e ∈ store.page cursor limit) : e ∈ store.entries :=
  (store.page_sublist cursor limit).mem h

theorem Store.beyond_of_mem_page (h : e ∈ store.page cursor limit) : beyond cursor e = true :=
  (List.mem_filter.1 (List.mem_of_mem_take h)).2

/-- An empty page has nothing left to show. -/
theorem Store.page_eq_nil (hlimit : 1 ≤ limit) (h : store.page cursor limit = []) (he : e ∈ store.entries) :
    ¬ beyond cursor e = true := by
  intro hbeyond
  have hmem : e ∈ store.entries.filter (beyond cursor) := List.mem_filter.2 ⟨he, hbeyond⟩
  rw [Store.page, List.take_eq_nil_iff] at h
  rcases h with h | h
  · omega
  · rw [h] at hmem
    exact List.not_mem_nil hmem

/-- A page holds every entry between the cursor and its last key. -/
theorem Store.page_covers (hlast : last ∈ store.page cursor limit) (he : e ∈ store.entries)
    (hbeyond : beyond cursor e = true) (hle : e.1 ≤ last.1) : e ∈ store.page cursor limit := by
  have hmem : e ∈ store.entries.filter (beyond cursor) := List.mem_filter.2 ⟨he, hbeyond⟩
  rw [← List.take_append_drop limit (store.entries.filter (beyond cursor))] at hmem
  rcases List.mem_append.1 hmem with hpage | hrest
  · exact hpage
  -- What is cut off lies after everything on the page.
  · have hsorted : (store.entries.filter (beyond cursor)).Pairwise fun a b => a.1 < b.1 :=
      store.sorted.sublist List.filter_sublist
    rw [← List.take_append_drop limit (store.entries.filter (beyond cursor)), List.pairwise_append] at hsorted
    exact absurd (hsorted.2.2 last hlast e hrest) (not_lt.2 hle)

end Page

/-! ### The collected entries -/

/-- What the requests after `first` up to `now` have collected, and the cursor they left. -/
structure Collected (stores : Nat → Store κ α) (first now : Nat) (cursor : Option κ) (entries : List (κ × α)) :
    Prop where
  sorted : entries.Pairwise fun a b => a.1 < b.1
  within : ∀ e ∈ entries, ¬ beyond cursor e = true
  covers : ∀ e : κ × α, (∀ i, first < i → i ≤ now → e ∈ (stores i).entries) → ¬ beyond cursor e = true →
    e ∈ entries
  found : ∀ e ∈ entries, ∃ i, first < i ∧ i ≤ now ∧ e ∈ (stores i).entries

section Collected

variable {stores : Nat → Store κ α} {first now limit : Nat} {cursor : Option κ} {entries : List (κ × α)}

theorem Collected.start (stores : Nat → Store κ α) (first : Nat) : Collected stores first first none [] where
  sorted := .nil
  within _ he := absurd he List.not_mem_nil
  covers e _ hbeyond := absurd (beyond_none e) hbeyond
  found _ he := absurd he List.not_mem_nil

/-- The last entry of a page has the greatest key. -/
theorem le_getLast {l : List (κ × α)} (hsorted : l.Pairwise fun a b => a.1 < b.1) {last : κ × α}
    (hlast : last ∈ l.getLast?) : ∀ e ∈ l, e.1 ≤ last.1 := by
  obtain ⟨init, rfl⟩ := List.getLast?_eq_some_iff.1 hlast
  rw [List.pairwise_append] at hsorted
  intro e he
  rcases List.mem_append.1 he with he | he
  · exact (hsorted.2.2 e he last (by simp)).le
  · rw [List.mem_singleton.1 he]

/-- **One more page** with a last entry. -/
theorem Collected.next (h : Collected stores first now cursor entries) (hnow : first ≤ now) {last : κ × α}
    (hlast : last ∈ ((stores (now + 1)).page cursor limit).getLast?) :
    Collected stores first (now + 1) (some last.1) (entries ++ (stores (now + 1)).page cursor limit) := by
  have hmem := List.mem_of_getLast? hlast
  have hpage := (stores (now + 1)).page_sorted cursor limit
  have hle := le_getLast hpage hlast
  -- Everything collected so far lies before everything on the page.
  have hbefore : ∀ a ∈ entries, ∀ b ∈ (stores (now + 1)).page cursor limit, a.1 < b.1 := by
    intro a ha b hb
    have hna := h.within a ha
    have hbeyond := Store.beyond_of_mem_page hb
    cases cursor with
    | none => exact absurd (beyond_none a) hna
    | some key =>
      rw [beyond_some] at hna hbeyond
      exact lt_of_le_of_lt (not_lt.1 hna) hbeyond
  refine ⟨List.pairwise_append.2 ⟨h.sorted, hpage, hbefore⟩, ?_, ?_, ?_⟩
  · intro e he
    rw [beyond_some, not_lt]
    rcases List.mem_append.1 he with he | he
    · exact (hbefore e he last hmem).le
    · exact hle e he
  · intro e hstays hbeyond
    rw [beyond_some, not_lt] at hbeyond
    by_cases hold : beyond cursor e = true
    · exact List.mem_append_right _
        (Store.page_covers hmem (hstays (now + 1) (by omega) le_rfl) hold hbeyond)
    · exact List.mem_append_left _ (h.covers e (fun i hi hin => hstays i hi (by omega)) hold)
  · intro e he
    rcases List.mem_append.1 he with he | he
    · obtain ⟨i, hi, hin, hmem⟩ := h.found e he
      exact ⟨i, hi, by omega, hmem⟩
    · exact ⟨now + 1, by omega, le_rfl, Store.mem_of_mem_page he⟩

/-- **The last page** is empty: whatever stayed in the store has been collected. -/
theorem Collected.last (h : Collected stores first now cursor entries) (hnow : first ≤ now) (hlimit : 1 ≤ limit)
    (hpage : (stores (now + 1)).page cursor limit = []) :
    ∀ e : κ × α, (∀ i, first < i → i ≤ now + 1 → e ∈ (stores i).entries) → e ∈ entries := by
  intro e hstays
  apply h.covers e fun i hi hin => hstays i hi (by omega)
  exact Store.page_eq_nil hlimit hpage (hstays (now + 1) (by omega) le_rfl)

end Collected

/-! ### Keys from a finite set -/

/-- The keys that may still come after the cursor. -/
def keysBeyond (keys : Finset κ) (cursor : Option κ) : Finset κ := keys.filter fun key => cursor.all (· < key)

/-- A page with a last entry leaves fewer keys to come, however the store changes. -/
theorem keysBeyond_lt {store : Store κ α} {cursor : Option κ} {limit : Nat} {last : κ × α} {keys : Finset κ}
    (hlast : last ∈ store.page cursor limit) (hkey : last.1 ∈ keys) :
    (keysBeyond keys (some last.1)).card < (keysBeyond keys cursor).card := by
  have hbeyond := Store.beyond_of_mem_page hlast
  apply Finset.card_lt_card
  rw [Finset.ssubset_iff_of_subset]
  · exact ⟨last.1, Finset.mem_filter.2 ⟨hkey, hbeyond⟩, by simp [keysBeyond]⟩
  · intro key hmem
    obtain ⟨hin, hafter⟩ := Finset.mem_filter.1 hmem
    rw [Option.all_some, decide_eq_true_eq] at hafter
    refine Finset.mem_filter.2 ⟨hin, ?_⟩
    cases cursor with
    | none => rfl
    | some before =>
      rw [beyond_some] at hbeyond
      rw [Option.all_some, decide_eq_true_eq]
      exact hbeyond.trans hafter

/-! ### A store that does not change -/

/-- The entries that are still to come. -/
def Store.remaining (store : Store κ α) (cursor : Option κ) : Nat := (store.entries.filter (beyond cursor)).length

/-- A page with a last entry leaves fewer entries to come. -/
theorem Store.remaining_lt {store : Store κ α} {cursor : Option κ} {limit : Nat} {last : κ × α}
    (hlast : last ∈ store.page cursor limit) : store.remaining (some last.1) < store.remaining cursor := by
  have hsub : store.entries.filter (beyond (some last.1)) =
      (store.entries.filter (beyond cursor)).filter (beyond (some last.1)) := by
    rw [List.filter_filter]
    apply List.filter_congr
    intro e he
    by_cases hafter : beyond (some last.1) e = true
    · have hcursor : beyond cursor e = true := by
        have hbeyond := Store.beyond_of_mem_page hlast
        cases cursor with
        | none => rfl
        | some key =>
          rw [beyond_some] at hafter hbeyond ⊢
          exact hbeyond.trans hafter
      rw [hafter, hcursor]
      rfl
    · rw [Bool.not_eq_true] at hafter
      rw [hafter]
      rfl
  rw [Store.remaining, Store.remaining, hsub, List.length_filter_lt_length_iff_exists]
  exact ⟨last, List.mem_of_mem_take hlast, by simp⟩

/-- Sorted entries that are those of a store are the store. -/
theorem Store.eq_entries (store : Store κ α) {entries : List (κ × α)}
    (hsorted : entries.Pairwise fun a b => a.1 < b.1) (hmem : ∀ e, e ∈ entries ↔ e ∈ store.entries) :
    entries = store.entries := by
  have hnodup : ∀ {l : List (κ × α)}, (l.Pairwise fun a b => a.1 < b.1) → l.Nodup := fun h =>
    h.imp fun hlt heq => absurd hlt (by rw [heq]; exact lt_irrefl _)
  refine List.Perm.eq_of_pairwise (fun a b _ _ hab hba => absurd (hab.trans hba) (lt_irrefl _)) hsorted store.sorted ?_
  exact (List.perm_ext_iff_of_nodup (hnodup hsorted) (hnodup store.sorted)).2 hmem

end CkbDilithium.Pagination
