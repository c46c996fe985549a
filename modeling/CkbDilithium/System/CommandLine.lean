import CkbDilithium.System.KeyFile

/-!
# The order of the options

A command looks its options up by name, the first occurrence of a name and the word after it. When the words are
options with their values and flags, each given once and no value looks like a name (`WellFormedArgs`), this finds
every option whatever the order, so that every command runs the same for any order of its options.
-/

namespace CkbDilithium.System

open Sdk Sdk.Cli Js

/-! ### Arguments -/

/-- An option with its value, or a flag. -/
inductive Arg where
  | option (name value : JsString)
  | flag (name : JsString)
  deriving DecidableEq

def Arg.name : Arg → JsString
  | .option name _ => name
  | .flag name => name

def Arg.words : Arg → List JsString
  | .option name value => [name, value]
  | .flag name => [name]

/-- The words of a command line. -/
def commandWords (args : List Arg) : List JsString := args.flatMap Arg.words

def flagNames : List JsString := [lit "--wait", lit "--dry-run"]

/-- The name of an option that takes a value. -/
def IsOption (name : JsString) : Prop := lit "--" <+: name ∧ name ∉ flagNames

instance (name : JsString) : Decidable (IsOption name) := inferInstanceAs (Decidable (_ ∧ _))

/-- Options and flags are given once, under their own names, and no value looks like a name. -/
structure WellFormedArgs (args : List Arg) : Prop where
  nodup : (args.map Arg.name).Nodup
  options : ∀ name value, .option name value ∈ args → IsOption name ∧ ¬ lit "--" <+: value
  flags : ∀ name, .flag name ∈ args → name ∈ flagNames

theorem flagNames_dashes : ∀ name ∈ flagNames, lit "--" <+: name := by decide

/-! ### Looking an option up -/

theorem optionalOption_cons (word : JsString) (words : List JsString) (name : JsString) :
    optionalOption (word :: words) name = if word = name then words.head? else optionalOption words name := by
  unfold optionalOption
  by_cases hword : word = name
  · subst hword
    simp [List.idxOf?_cons, List.head?_eq_getElem?]
  · have hne : (word == name) = false := beq_eq_false_iff_ne.2 hword
    simp only [List.idxOf?_cons, hne, Bool.false_eq_true, if_false, if_neg hword]
    cases words.idxOf? name with
    | none => rfl
    | some index => simp

theorem WellFormedArgs.tail {arg : Arg} {args : List Arg} (h : WellFormedArgs (arg :: args)) : WellFormedArgs args where
  nodup := (List.nodup_cons.1 h.nodup).2
  options := fun name value hmem => h.options name value (List.mem_cons_of_mem _ hmem)
  flags := fun name hmem => h.flags name (List.mem_cons_of_mem _ hmem)

/-- **An option is found wherever it stands.** -/
theorem WellFormedArgs.optionalOption_iff {args : List Arg} (h : WellFormedArgs args) {name value : JsString}
    (hname : IsOption name) :
    optionalOption (commandWords args) name = some value ↔ .option name value ∈ args := by
  induction args with
  | nil => simp [commandWords, optionalOption]
  | cons arg args ih =>
    have ih := ih h.tail
    cases arg with
    | option name' value' =>
      obtain ⟨-, hvalue⟩ := h.options name' value' List.mem_cons_self
      have hskip : value' ≠ name := fun heq => hvalue (heq ▸ hname.1)
      change optionalOption (name' :: value' :: commandWords args) name = some value ↔ _
      rw [optionalOption_cons, optionalOption_cons, if_neg hskip]
      by_cases hsame : name' = name
      · subst hsame
        rw [if_pos rfl]
        have hfresh : Arg.option name' value ∉ args := fun hmem =>
          (List.nodup_cons.1 h.nodup).1 (List.mem_map.2 ⟨_, hmem, rfl⟩)
        simp [hfresh, eq_comm]
      · rw [if_neg hsame, ih]
        simp [Ne.symm hsame]
    | flag name' =>
      have hskip : name' ≠ name := fun heq => hname.2 (heq ▸ h.flags name' List.mem_cons_self)
      change optionalOption (name' :: commandWords args) name = some value ↔ _
      rw [optionalOption_cons, if_neg hskip, ih]
      simp

theorem WellFormedArgs.hasFlag_iff {args : List Arg} (h : WellFormedArgs args) {name : JsString}
    (hname : name ∈ flagNames) : hasFlag (commandWords args) name = true ↔ .flag name ∈ args := by
  rw [hasFlag, List.contains_iff_mem, commandWords, List.mem_flatMap]
  constructor
  · rintro ⟨arg, harg, hword⟩
    cases arg with
    | option name' value =>
      obtain ⟨hoption, hvalue⟩ := h.options name' value harg
      rcases List.mem_cons.1 hword with rfl | hword
      · exact absurd hname hoption.2
      · rw [List.mem_singleton.1 hword] at hname
        exact absurd (flagNames_dashes _ hname) hvalue
    | flag name' =>
      rw [List.mem_singleton.1 hword]
      exact harg
  · intro hmem
    exact ⟨_, hmem, List.mem_singleton_self _⟩

/-! ### Commands with the same options -/

/-- The words give every option and flag the same value. -/
structure SameOptions (args args' : List JsString) : Prop where
  options : ∀ name, IsOption name → optionalOption args name = optionalOption args' name
  flags : ∀ name ∈ flagNames, hasFlag args name = hasFlag args' name

theorem WellFormedArgs.sameOptions {args args' : List Arg} (h : WellFormedArgs args) (hperm : args.Perm args') :
    SameOptions (commandWords args) (commandWords args') := by
  have h' : WellFormedArgs args' := {
    nodup := ((hperm.map Arg.name).nodup_iff).1 h.nodup
    options := fun name value hmem => h.options name value (hperm.mem_iff.2 hmem)
    flags := fun name hmem => h.flags name (hperm.mem_iff.2 hmem) }
  constructor
  · intro name hname
    ext value
    rw [h.optionalOption_iff hname, h'.optionalOption_iff hname, hperm.mem_iff]
  · intro name hname
    rw [Bool.eq_iff_iff, h.hasFlag_iff hname, h'.hasFlag_iff hname, hperm.mem_iff]

section

variable {args args' : List JsString}

theorem SameOptions.requireOption_eq (h : SameOptions args args') (name : JsString) (hname : IsOption name) :
    requireOption args name = requireOption args' name := by
  rw [requireOption, requireOption, h.options name hname]

theorem SameOptions.parseTransferArgs_eq (h : SameOptions args args') :
    parseTransferArgs args = parseTransferArgs args' := by
  unfold parseTransferArgs
  rw [h.requireOption_eq (lit "--key-file") (by decide), h.requireOption_eq (lit "--rpc-url") (by decide),
    h.options (lit "--indexer-url") (by decide), h.requireOption_eq (lit "--network") (by decide),
    h.requireOption_eq (lit "--to") (by decide), h.requireOption_eq (lit "--amount-ckb") (by decide),
    h.options (lit "--fee-rate") (by decide), h.flags (lit "--wait") (by decide), h.flags (lit "--dry-run") (by decide),
    h.options (lit "--timeout-ms") (by decide), h.options (lit "--interval-ms") (by decide)]

theorem SameOptions.parseBalanceArgs_eq (h : SameOptions args args') :
    parseBalanceArgs args = parseBalanceArgs args' := by
  unfold parseBalanceArgs
  rw [h.requireOption_eq (lit "--key-file") (by decide), h.requireOption_eq (lit "--rpc-url") (by decide),
    h.options (lit "--indexer-url") (by decide), h.requireOption_eq (lit "--network") (by decide),
    h.flags (lit "--wait") (by decide), h.options (lit "--min-ckb") (by decide),
    h.options (lit "--timeout-ms") (by decide), h.options (lit "--interval-ms") (by decide)]

/-- A command depends on its words through its options. -/
theorem SameOptions.main_eq (h : SameOptions args args') (env : Environment) (wasm : WasmModule) (fuel : Nat)
    (command : JsString) : main env wasm fuel (command :: args) = main env wasm fuel (command :: args') := by
  have hkeygen : runKeygen env wasm args = runKeygen env wasm args' := by
    unfold runKeygen
    rw [h.requireOption_eq (lit "--out") (by decide), h.options (lit "--network") (by decide)]
  have haddress : runAddress env wasm.toWasmExports args = runAddress env wasm.toWasmExports args' := by
    unfold runAddress
    rw [h.requireOption_eq (lit "--key-file") (by decide), h.requireOption_eq (lit "--network") (by decide)]
  have hbalance : runBalance env wasm.toWasmExports fuel args = runBalance env wasm.toWasmExports fuel args' := by
    unfold runBalance
    rw [h.parseBalanceArgs_eq]
  have hcheck : runCheckOutpoint env wasm.toWasmExports args = runCheckOutpoint env wasm.toWasmExports args' := by
    unfold runCheckOutpoint
    rw [h.requireOption_eq (lit "--key-file") (by decide), h.requireOption_eq (lit "--rpc-url") (by decide),
      h.requireOption_eq (lit "--network") (by decide), h.requireOption_eq (lit "--tx-hash") (by decide),
      h.requireOption_eq (lit "--index") (by decide)]
  have hwait : runWait env wasm.toWasmExports fuel args = runWait env wasm.toWasmExports fuel args' := by
    unfold runWait
    rw [h.parseBalanceArgs_eq]
  have htransfer : runTransfer env wasm.toWasmExports fuel args = runTransfer env wasm.toWasmExports fuel args' := by
    unfold runTransfer
    rw [h.parseTransferArgs_eq]
  simp only [main, hkeygen, haddress, hbalance, hcheck, hwait, htransfer]

end

/-- **The order of the options does not matter**: a command runs the same for every order of its options and flags. -/
theorem run_perm (env : Environment) (wasm : WasmModule) (fuel : Nat) (command : JsString) {args args' : List Arg}
    (h : WellFormedArgs args) (hperm : args.Perm args') :
    run env wasm fuel (command :: commandWords args) = run env wasm fuel (command :: commandWords args') := by
  rw [run, run, (h.sameOptions hperm).main_eq]

def addressArgs : List Arg := [.option (lit "--key-file") (lit "key.json"), .option (lit "--network") (lit "testnet"),
  .flag (lit "--wait")]

theorem addressArgs_wellFormed : WellFormedArgs addressArgs := by
  constructor
  · decide
  · intro name value hmem
    simp only [addressArgs, List.mem_cons, Arg.option.injEq, List.not_mem_nil, reduceCtorEq, or_false] at hmem
    rcases hmem with ⟨rfl, rfl⟩ | ⟨rfl, rfl⟩
    · decide
    · decide
  · intro name hmem
    simp only [addressArgs, List.mem_cons, Arg.flag.injEq, List.not_mem_nil, reduceCtorEq, or_false, false_or] at hmem
    rw [hmem]
    decide

theorem run_perm_addressArgs :
    run emptyMachine zeroModule 0 (lit "address" :: commandWords addressArgs) =
      run emptyMachine zeroModule 0 (lit "address" :: commandWords addressArgs.reverse) :=
  run_perm _ _ _ _ addressArgs_wellFormed (List.reverse_perm _).symm

end CkbDilithium.System
