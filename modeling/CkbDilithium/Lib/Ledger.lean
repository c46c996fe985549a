import Mathlib.Tactic

/-!
# Ledgers of coins

A ledger is a list of coins, each with a reference, an owner and a value, and the references are distinct. Settling
a transaction takes the coins it spends off the ledger and adds those it creates, so that the balance of every owner
changes by what is created for it less what is spent of it (`balance_settle`).
-/

namespace CkbDilithium.Ledger

variable {ρ ο : Type}

structure Coin (ρ ο : Type) where
  ref : ρ
  owner : ο
  value : Int
  deriving DecidableEq

/-- What the coins of an owner are worth. -/
def balance [DecidableEq ο] (coins : List (Coin ρ ο)) (owner : ο) : Int :=
  ((coins.filter fun coin => coin.owner = owner).map Coin.value).sum

/-- The coins after a transaction that spends some and creates others. -/
def settle [DecidableEq ρ] (coins : List (Coin ρ ο)) (spent : List ρ) (created : List (Coin ρ ο)) : List (Coin ρ ο) :=
  coins.filter (fun coin => coin.ref ∉ spent) ++ created

/-- The owner of the coin with the reference. -/
def ownerAt [DecidableEq ρ] (coins : List (Coin ρ ο)) (ref : ρ) : Option ο :=
  (coins.find? fun coin => coin.ref = ref).map Coin.owner

/-! ### Balances -/

section

variable [DecidableEq ο]

@[simp] theorem balance_nil (owner : ο) : balance ([] : List (Coin ρ ο)) owner = 0 := rfl

@[simp] theorem balance_cons (coin : Coin ρ ο) (coins : List (Coin ρ ο)) (owner : ο) :
    balance (coin :: coins) owner = (if coin.owner = owner then coin.value else 0) + balance coins owner := by
  unfold balance
  by_cases howner : coin.owner = owner
  · rw [List.filter_cons_of_pos (by simpa using howner), if_pos howner, List.map_cons, List.sum_cons]
  · rw [List.filter_cons_of_neg (by simpa using howner), if_neg howner, Int.zero_add]

theorem balance_append (coins coins' : List (Coin ρ ο)) (owner : ο) :
    balance (coins ++ coins') owner = balance coins owner + balance coins' owner := by
  rw [balance, List.filter_append, List.map_append, List.sum_append]
  rfl

theorem balance_perm {coins coins' : List (Coin ρ ο)} (h : coins.Perm coins') (owner : ο) :
    balance coins owner = balance coins' owner :=
  ((h.filter _).map _).sum_eq

/-- Coins of one owner. -/
theorem balance_of_owner {coins : List (Coin ρ ο)} {own : ο} (h : ∀ coin ∈ coins, coin.owner = own) (owner : ο) :
    balance coins owner = if owner = own then (coins.map Coin.value).sum else 0 := by
  induction coins with
  | nil => simp
  | cons coin coins ih =>
    obtain ⟨hcoin, hcoins⟩ := List.forall_mem_cons.1 h
    rw [balance_cons, ih hcoins, hcoin, List.map_cons, List.sum_cons]
    by_cases howner : owner = own
    · simp [howner]
    · simp [howner, Ne.symm howner]

end

/-! ### Settled transactions -/

variable [DecidableEq ρ]

/-- The coins of a ledger are those that are spent and those that are not. -/
theorem perm_spent {coins spent : List (Coin ρ ο)} (hnodup : (coins.map Coin.ref).Nodup)
    (hspent : spent.Subperm coins) :
    coins.Perm (spent ++ coins.filter fun coin => coin.ref ∉ spent.map Coin.ref) := by
  obtain ⟨spent', hspent', hsublist⟩ := hspent
  obtain ⟨rest, hrest⟩ := hsublist.exists_perm_append
  have hperm : coins.Perm (spent ++ rest) := hrest.trans (hspent'.append_right rest)
  have hrefs : ((spent ++ rest).map Coin.ref).Nodup := (hperm.map Coin.ref).nodup_iff.1 hnodup
  rw [List.map_append, List.nodup_append'] at hrefs
  obtain ⟨-, -, hdisjoint⟩ := hrefs
  have hnone : spent.filter (fun coin => coin.ref ∉ spent.map Coin.ref) = [] := by
    rw [List.filter_eq_nil_iff]
    intro coin hcoin
    simpa using ⟨coin, hcoin, rfl⟩
  have hall : rest.filter (fun coin => coin.ref ∉ spent.map Coin.ref) = rest := by
    rw [List.filter_eq_self]
    intro coin hcoin
    exact decide_eq_true fun hmem => hdisjoint hmem (List.mem_map_of_mem hcoin)
  have hfilter := hperm.filter fun coin => coin.ref ∉ spent.map Coin.ref
  rw [List.filter_append, hnone, hall, List.nil_append] at hfilter
  exact hperm.trans (hfilter.symm.append_left spent)

/-- **A settled transaction changes a balance** by what it creates for the owner less what it spends of it. -/
theorem balance_settle [DecidableEq ο] {coins spent : List (Coin ρ ο)} (hnodup : (coins.map Coin.ref).Nodup)
    (hspent : spent.Subperm coins) (created : List (Coin ρ ο)) (owner : ο) :
    balance (settle coins (spent.map Coin.ref) created) owner =
      balance coins owner - balance spent owner + balance created owner := by
  have hsplit := balance_perm (perm_spent hnodup hspent) owner
  rw [balance_append] at hsplit
  rw [settle, balance_append]
  omega

/-- References stay distinct when the created ones are new. -/
theorem settle_nodup {coins created : List (Coin ρ ο)} {spent : List ρ} (hnodup : (coins.map Coin.ref).Nodup)
    (hcreated : (created.map Coin.ref).Nodup) (hfresh : ∀ coin ∈ created, coin.ref ∉ coins.map Coin.ref) :
    ((settle coins spent created).map Coin.ref).Nodup := by
  rw [settle, List.map_append, List.nodup_append']
  refine ⟨hnodup.sublist (List.filter_sublist.map _), hcreated, fun ref hold hnew => ?_⟩
  obtain ⟨coin, hcoin, rfl⟩ := List.mem_map.1 hnew
  exact hfresh coin hcoin ((List.filter_sublist.map _).subset hold)

theorem ownerAt_of_mem {coins : List (Coin ρ ο)} (hnodup : (coins.map Coin.ref).Nodup) {coin : Coin ρ ο}
    (hcoin : coin ∈ coins) : ownerAt coins coin.ref = some coin.owner := by
  induction coins with
  | nil => cases hcoin
  | cons first coins ih =>
    rw [List.map_cons, List.nodup_cons] at hnodup
    rcases List.mem_cons.1 hcoin with rfl | hcoin
    · rw [ownerAt, List.find?_cons_of_pos (by simp), Option.map_some]
    · have hne : first.ref ≠ coin.ref := fun heq => hnodup.1 (heq ▸ List.mem_map_of_mem hcoin)
      rw [ownerAt, List.find?_cons_of_neg (by simpa using hne)]
      exact ih hnodup.2 hcoin

end CkbDilithium.Ledger
