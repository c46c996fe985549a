import CkbDilithium.Sdk.Bridge
import CkbDilithium.System.KeyFile

/-!
# The bridge frees what it allocates

For an instance whose allocator hands out blocks apart from the live ones and whose functions compute those of the
parameter (`Sound`), the operations of the bridge return what the parameter says, or the trap of a call (`Outcome`),
and leave the live blocks and their contents as they were (`Kept`), also when a call traps. Only a key generation
whose second allocation traps keeps a block.
-/

namespace CkbDilithium.System

open Sdk Js LinearMemory WasmApi

variable {σ : Type}

/-! ### What is assumed of an instance -/

section

variable (inst : WasmInstance σ) (live : σ → List Block) (Trap : JsError → Prop)

/-- The live blocks are the same, and those apart from the outputs have the same contents. -/
structure Kept (outputs : List Block) (s s' : σ) : Prop where
  live_eq : live s' = live s
  contents : ∀ block ∈ live s, (∀ output ∈ outputs, block.Apart output) →
    readBlock (inst.memory s') block = readBlock (inst.memory s) block

/-- The call traps, or returns a status: zero with the results in the outputs, or another one. -/
def Computes (call : Action σ JsError Nat) (outputs : List Block) (result : Except Nat (List Bytes)) (s : σ) : Prop :=
  ∃ r s', call.Ends s r s' ∧ Kept inst live outputs s s' ∧
    ((∃ e, Trap e ∧ r = .error e) ∨
      (r = .ok 0 ∧ result = .ok (outputs.map (readBlock (inst.memory s')))) ∨
      ∃ status, status ≠ 0 ∧ r = .ok status ∧ result = .error status)

/-- A block is added that is apart from the others, which keep their contents. -/
structure Allocated (ptr length : Nat) (s s' : σ) : Prop where
  live_eq : live s' = ⟨ptr, length⟩ :: live s
  apart : ∀ block ∈ live s, block.Apart ⟨ptr, length⟩
  contents : ∀ block ∈ live s, readBlock (inst.memory s') block = readBlock (inst.memory s) block

/-- The instance computes the functions of the module on the blocks it is given. -/
structure Sound (wasm : WasmModule) : Prop where
  fits : ∀ s, ∀ block ∈ live s, block.Fits (inst.memory s)
  memory_store : ∀ s memory, inst.memory (inst.store s memory) = memory
  live_store : ∀ s ptr bytes, ⟨ptr, bytes.length⟩ ∈ live s →
    live (inst.store s (writeBlock (inst.memory s) ptr bytes)) = live s
  argsLen : inst.argsLen = lockArgsLen
  sigLen : inst.sigLen = signatureLen
  alloc : ∀ s length, ∃ r s', (inst.alloc length).Ends s r s' ∧
    ((∃ e, Trap e ∧ r = .error e ∧ Kept inst live [] s s') ∨ ∃ ptr, r = .ok ptr ∧ Allocated inst live ptr length s s')
  dealloc : ∀ s ptr len, ⟨ptr, len⟩ ∈ live s → ∃ s', (inst.dealloc ptr len).Ends s (.ok ()) s' ∧
    live s' = (live s).erase ⟨ptr, len⟩ ∧
    ∀ block ∈ live s', readBlock (inst.memory s') block = readBlock (inst.memory s) block
  hashPubkey : ∀ s input output, input ∈ live s → output ∈ live s → output.size = inst.argsLen →
    Computes inst live Trap (inst.hashPubkey input.start input.size output.start) [output]
      ((wasm.hashPubkey (readBlock (inst.memory s) input)).map ([·])) s
  ckbHash : ∀ s input output, input ∈ live s → output ∈ live s → output.size = inst.argsLen →
    Computes inst live Trap (inst.ckbHash input.start input.size output.start) [output]
      ((wasm.ckbHash (readBlock (inst.memory s) input)).map ([·])) s
  signMessageWithSeed : ∀ s secretKey message seed output, secretKey ∈ live s → message ∈ live s → seed ∈ live s →
    output ∈ live s → output.size = inst.sigLen →
    Computes inst live Trap (inst.signMessageWithSeed secretKey.start secretKey.size message.start message.size
      seed.start seed.size output.start) [output]
      ((wasm.signMessageWithSeed (readBlock (inst.memory s) secretKey) (readBlock (inst.memory s) message)
        (readBlock (inst.memory s) seed)).map ([·])) s
  verifySignature : ∀ s publicKey message signature, publicKey ∈ live s → message ∈ live s → signature ∈ live s →
    ∃ r s', (inst.verifySignature publicKey.start publicKey.size message.start message.size signature.start
      signature.size).Ends s r s' ∧ Kept inst live [] s s' ∧
      ((∃ e, Trap e ∧ r = .error e) ∨ r = .ok (wasm.verifySignature (readBlock (inst.memory s) publicKey)
        (readBlock (inst.memory s) message) (readBlock (inst.memory s) signature)))
  generateKeypairFromSeed : ∀ s seed publicKey secretKey, seed ∈ live s → publicKey ∈ live s → secretKey ∈ live s →
    publicKey.size = publicKeyLen → secretKey.size = secretKeyLen → publicKey.Apart secretKey →
    Computes inst live Trap (inst.generateKeypairFromSeed seed.start seed.size publicKey.start secretKey.start)
      [publicKey, secretKey] ((wasm.generateKeypairFromSeed (readBlock (inst.memory s) seed)).map fun keys =>
        [keys.1, keys.2]) s

/-- A trap, or the expected result. -/
def Outcome {α : Type} (expected r : Js α) : Prop := (∃ e, Trap e ∧ r = .error e) ∨ r = expected

end

section

variable {inst : WasmInstance σ} {live : σ → List Block} {Trap : JsError → Prop} {wasm : WasmModule} {s s₁ s' : σ}

/-! ### Blocks that come and go -/

/-- A block that was added first and freed last leaves no trace. -/
theorem Sound.dealloc_head (h : Sound inst live Trap wasm) {ptr length : Nat} {outputs : List Block}
    (hallocated : Allocated inst live ptr length s s₁) {s₂ : σ}
    (hkept : Kept inst live (⟨ptr, length⟩ :: outputs) s₁ s₂) :
    ∃ s', (inst.dealloc ptr length).Ends s₂ (.ok ()) s' ∧ Kept inst live outputs s s' := by
  have hlive : live s₂ = ⟨ptr, length⟩ :: live s := hkept.live_eq.trans hallocated.live_eq
  obtain ⟨s', hends, hlive', hcontents⟩ := h.dealloc s₂ ptr length (by rw [hlive]; exact List.mem_cons_self)
  rw [hlive, List.erase_cons_head] at hlive'
  refine ⟨s', hends, hlive', fun block hblock hapart => ?_⟩
  rw [hcontents block (hlive' ▸ hblock), hkept.contents block ?_ ?_, hallocated.contents block hblock]
  · rw [hallocated.live_eq]
    exact List.mem_cons_of_mem _ hblock
  · exact List.forall_mem_cons.2 ⟨hallocated.apart block hblock, hapart⟩

/-- What is written to a new block. -/
theorem Sound.storeBytes_ends (h : Sound inst live Trap wasm) {bytes : Bytes} {ptr : Nat}
    (hallocated : Allocated inst live ptr bytes.length s s₁) :
    ∃ s₂, (storeBytes inst bytes ptr).Ends s₁ (.ok ()) s₂ ∧ Allocated inst live ptr bytes.length s s₂ ∧
      readBlock (inst.memory s₂) ⟨ptr, bytes.length⟩ = bytes := by
  have hmem : ⟨ptr, bytes.length⟩ ∈ live s₁ := by
    rw [hallocated.live_eq]
    exact List.mem_cons_self
  have hfits : ptr + bytes.length ≤ (inst.memory s₁).length := h.fits s₁ _ hmem
  refine ⟨inst.store s₁ (writeBlock (inst.memory s₁) ptr bytes), ?_, ⟨?_, hallocated.apart, ?_⟩, ?_⟩
  · rw [storeBytes, Action.update_ends, if_pos hfits]
  · rw [h.live_store s₁ ptr bytes hmem, hallocated.live_eq]
  · intro block hblock
    rw [h.memory_store, readBlock_writeBlock_apart hfits (hallocated.apart block hblock),
      hallocated.contents block hblock]
  · rw [h.memory_store, readBlock_writeBlock hfits]

/-- **The rule for an input**: the callback finds the bytes in a new block, and the block is gone afterwards. -/
theorem Sound.withInput_ends (h : Sound inst live Trap wasm) {α : Type} {expected : Js α} {bytes : Bytes}
    {callback : Nat → Action σ JsError α} {outputs : List Block} (s : σ)
    (hcallback : ∀ ptr s₁, Allocated inst live ptr bytes.length s s₁ →
      readBlock (inst.memory s₁) ⟨ptr, bytes.length⟩ = bytes →
      ∃ r s₂, (callback ptr).Ends s₁ r s₂ ∧ Kept inst live outputs s₁ s₂ ∧ Outcome Trap expected r) :
    ∃ r s', (withInput inst bytes callback).Ends s r s' ∧ Kept inst live outputs s s' ∧ Outcome Trap expected r := by
  obtain ⟨r, s₀, halloc, ⟨e, htrap, rfl, hkept⟩ | ⟨ptr, rfl, hallocated⟩⟩ := h.alloc s bytes.length
  · exact ⟨_, s₀, halloc.bind_throws, ⟨hkept.live_eq, fun block hblock _ => hkept.contents block hblock (by simp)⟩,
      Or.inl ⟨e, htrap, rfl⟩⟩
  · obtain ⟨s₁, hstore, hallocated, hread⟩ := h.storeBytes_ends hallocated
    obtain ⟨r, s₂, hbody, hkept, houtcome⟩ := hcallback ptr s₁ hallocated hread
    have hweaker : Kept inst live (⟨ptr, bytes.length⟩ :: outputs) s₁ s₂ :=
      ⟨hkept.live_eq, fun block hblock hapart => hkept.contents block hblock (List.forall_mem_cons.1 hapart).2⟩
    obtain ⟨s', hdealloc, hkept'⟩ := h.dealloc_head hallocated hweaker
    exact ⟨r, s', halloc.bind (hstore.bind (hbody.ensuring hdealloc)), hkept', houtcome⟩

/-- **The rule for an output.** -/
theorem Sound.withOutput_ends (h : Sound inst live Trap wasm) {α : Type} {expected : Js α} {length : Nat}
    {body : Nat → Action σ JsError α} (s : σ)
    (hbody : ∀ ptr s₁, Allocated inst live ptr length s s₁ →
      ∃ r s₂, (body ptr).Ends s₁ r s₂ ∧ Kept inst live [⟨ptr, length⟩] s₁ s₂ ∧ Outcome Trap expected r) :
    ∃ r s', (withOutput inst length body).Ends s r s' ∧ Kept inst live [] s s' ∧ Outcome Trap expected r := by
  obtain ⟨r, s₀, halloc, ⟨e, htrap, rfl, hkept⟩ | ⟨ptr, rfl, hallocated⟩⟩ := h.alloc s length
  · exact ⟨_, s₀, halloc.bind_throws, hkept, Or.inl ⟨e, htrap, rfl⟩⟩
  · obtain ⟨r, s₂, hends, hkept, houtcome⟩ := hbody ptr s₀ hallocated
    obtain ⟨s', hdealloc, hkept'⟩ := h.dealloc_head hallocated hkept
    exact ⟨r, s', halloc.bind (hends.ensuring hdealloc), hkept', houtcome⟩

/-! ### The operations -/

theorem Allocated.mem {ptr length : Nat} (h : Allocated inst live ptr length s s') : ⟨ptr, length⟩ ∈ live s' := by
  rw [h.live_eq]
  exact List.mem_cons_self

theorem Allocated.mem_of_mem {ptr length : Nat} (h : Allocated inst live ptr length s s') {block : Block}
    (hblock : block ∈ live s) : block ∈ live s' := by
  rw [h.live_eq]
  exact List.mem_cons_of_mem _ hblock

theorem readBytes_ends (ptr len : Nat) (s : σ) :
    (readBytes inst ptr len).Ends s (.ok (readBlock (inst.memory s) ⟨ptr, len⟩)) s := Action.update_ends.2 rfl

/-- The status is checked before the outputs are read. -/
theorem Computes.checked {α : Type} {call : Action σ JsError Nat} {outputs : List Block}
    {result : Except Nat (List Bytes)} {rest : Action σ JsError α} {expected : Js α}
    (h : Computes inst live Trap call outputs result s)
    (hok : ∀ s', result = .ok (outputs.map (readBlock (inst.memory s'))) → rest.Ends s' expected s')
    (herror : ∀ status, result = .error status → expected = encodeError status) :
    ∃ r s', (do let status ← call; Action.lift (checkStatus status); rest : Action σ JsError α).Ends s r s' ∧
      Kept inst live outputs s s' ∧ Outcome Trap expected r := by
  obtain ⟨r, s', hcall, hkept, ⟨e, htrap, rfl⟩ | ⟨rfl, hresult⟩ | ⟨status, hne, rfl, hresult⟩⟩ := h
  · exact ⟨_, s', hcall.bind_throws, hkept, Or.inl ⟨e, htrap, rfl⟩⟩
  · have hpassed : (Action.lift (checkStatus 0) : Action σ JsError Unit).Ends s' (.ok ()) s' :=
      Action.lift_ends.2 ⟨rfl, rfl⟩
    exact ⟨expected, s', hcall.bind (hpassed.bind (hok s' hresult)), hkept, Or.inr rfl⟩
  · have hthrown : (Action.lift (checkStatus status) : Action σ JsError Unit).Ends s' (encodeError status) s' :=
      Action.lift_ends.2 ⟨(if_pos hne).symm, rfl⟩
    refine ⟨encodeError status, s', hcall.bind hthrown.bind_throws, hkept, Or.inr ?_⟩
    exact (herror status hresult).symm

/-- One output of which all is read. -/
theorem Computes.read {call : Action σ JsError Nat} {ptr length : Nat} {result : Except Nat Bytes}
    (h : Computes inst live Trap call [⟨ptr, length⟩] (result.map ([·])) s) :
    ∃ r s', (do let status ← call; Action.lift (checkStatus status); readBytes inst ptr length).Ends s r s' ∧
      Kept inst live [⟨ptr, length⟩] s s' ∧ Outcome Trap (callWasm result) r := by
  refine h.checked (fun s' hresult => ?_) fun status hresult => ?_
  · cases result with
    | error status => cases hresult
    | ok value =>
      obtain rfl : value = readBlock (inst.memory s') ⟨ptr, length⟩ :=
        List.singleton_injective (Except.ok.inj hresult)
      exact readBytes_ends ptr length s'
  · cases result with
    | error status' =>
      cases hresult
      rfl
    | ok value => cases hresult

/-- The two hashes. -/
theorem Sound.hash_refines (h : Sound inst live Trap wasm) {function : Nat → Nat → Nat → Action σ JsError Nat}
    {result : Bytes → Except Nat Bytes}
    (hfunction : ∀ s input output, input ∈ live s → output ∈ live s → output.size = inst.argsLen →
      Computes inst live Trap (function input.start input.size output.start) [output]
        ((result (readBlock (inst.memory s) input)).map ([·])) s) (data : Bytes) (s : σ) :
    ∃ r s', (WasmApi.hash inst function data).Ends s r s' ∧ Kept inst live [] s s' ∧
      Outcome Trap (callWasm (result data)) r := by
  refine h.withOutput_ends s fun outputPtr s₁ houtput => h.withInput_ends s₁ fun dataPtr s₂ hinput hread => ?_
  have hcomputes := hfunction s₂ ⟨dataPtr, data.length⟩ ⟨outputPtr, inst.argsLen⟩ hinput.mem
    (hinput.mem_of_mem houtput.mem) rfl
  rw [hread] at hcomputes
  exact hcomputes.read

theorem Sound.signMessage_refines (h : Sound inst live Trap wasm) (secretKey message seed : Bytes) (s : σ) :
    ∃ r s', (WasmApi.signMessage inst secretKey message seed).Ends s r s' ∧ Kept inst live [] s s' ∧
      Outcome Trap (callWasm (wasm.signMessageWithSeed secretKey message seed)) r := by
  refine h.withOutput_ends s fun outputPtr s₁ houtput => ?_
  refine h.withInput_ends s₁ fun secretKeyPtr s₂ hsecret hsecretRead => ?_
  refine h.withInput_ends s₂ fun messagePtr s₃ hmessage hmessageRead => ?_
  refine h.withInput_ends s₃ fun seedPtr s₄ hseed hseedRead => ?_
  have hcomputes := h.signMessageWithSeed s₄ ⟨secretKeyPtr, secretKey.length⟩ ⟨messagePtr, message.length⟩
    ⟨seedPtr, seed.length⟩ ⟨outputPtr, inst.sigLen⟩ (hseed.mem_of_mem (hmessage.mem_of_mem hsecret.mem))
    (hseed.mem_of_mem hmessage.mem) hseed.mem
    (hseed.mem_of_mem (hmessage.mem_of_mem (hsecret.mem_of_mem houtput.mem))) rfl
  rw [hseed.contents _ (hmessage.mem_of_mem hsecret.mem), hmessage.contents _ hsecret.mem, hsecretRead,
    hseed.contents _ hmessage.mem, hmessageRead, hseedRead] at hcomputes
  rw [h.sigLen] at hcomputes ⊢
  exact hcomputes.read

theorem Sound.verifySignature_refines (h : Sound inst live Trap wasm) (publicKey message signature : Bytes) (s : σ) :
    ∃ r s', (WasmApi.verifySignature inst publicKey message signature).Ends s r s' ∧ Kept inst live [] s s' ∧
      Outcome Trap (verdict (wasm.verifySignature publicKey message signature)) r := by
  refine h.withInput_ends s fun publicKeyPtr s₁ hpublic hpublicRead => ?_
  refine h.withInput_ends s₁ fun messagePtr s₂ hmessage hmessageRead => ?_
  refine h.withInput_ends s₂ fun signaturePtr s₃ hsignature hsignatureRead => ?_
  obtain ⟨r, s₄, hcall, hkept, hstatus⟩ := h.verifySignature s₃ ⟨publicKeyPtr, publicKey.length⟩
    ⟨messagePtr, message.length⟩ ⟨signaturePtr, signature.length⟩
      (hsignature.mem_of_mem (hmessage.mem_of_mem hpublic.mem))
    (hsignature.mem_of_mem hmessage.mem) hsignature.mem
  rw [hsignature.contents _ (hmessage.mem_of_mem hpublic.mem), hmessage.contents _ hpublic.mem, hpublicRead,
    hsignature.contents _ hmessage.mem, hmessageRead, hsignatureRead] at hstatus
  rcases hstatus with ⟨e, htrap, rfl⟩ | rfl
  · exact ⟨_, s₄, hcall.bind_throws, hkept, Or.inl ⟨e, htrap, rfl⟩⟩
  · exact ⟨_, s₄, hcall.bind (Action.lift_ends.2 ⟨rfl, rfl⟩), hkept, Or.inr rfl⟩

/-- The blocks are added to the live ones, which keep their contents. -/
structure Added (inst : WasmInstance σ) (live : σ → List Block) (blocks : List Block) (s s' : σ) : Prop where
  live_eq : live s' = blocks ++ live s
  contents : ∀ block ∈ live s, readBlock (inst.memory s') block = readBlock (inst.memory s) block

theorem Kept.added (h : Kept inst live [] s s') : Added inst live [] s s' :=
  ⟨h.live_eq, fun block hblock => h.contents block hblock (by simp)⟩

theorem Added.trans {blocks blocks' : List Block} (h : Added inst live blocks s s₁)
    (h' : Added inst live blocks' s₁ s') :
    Added inst live (blocks' ++ blocks) s s' where
  live_eq := by rw [h'.live_eq, h.live_eq, List.append_assoc]
  contents block hblock := by
    rw [h'.contents block ?_, h.contents block hblock]
    rw [h.live_eq]
    exact List.mem_append_right _ hblock

/-- The two keys are freed in the order in which they were allocated. -/
theorem Sound.dealloc_keys (h : Sound inst live Trap wasm) {publicKeyPtr secretKeyPtr : Nat} {s₂ s₃ : σ}
    (hpublic : Allocated inst live publicKeyPtr publicKeyLen s s₁)
    (hsecret : Allocated inst live secretKeyPtr secretKeyLen s₁ s₂)
    (hkept : Kept inst live [⟨publicKeyPtr, publicKeyLen⟩, ⟨secretKeyPtr, secretKeyLen⟩] s₂ s₃) :
    ∃ s', (do inst.dealloc publicKeyPtr publicKeyLen; inst.dealloc secretKeyPtr secretKeyLen).Ends s₃ (.ok ()) s' ∧
      Added inst live [] s s' := by
  have hlive : live s₃ = ⟨secretKeyPtr, secretKeyLen⟩ :: ⟨publicKeyPtr, publicKeyLen⟩ :: live s := by
    rw [hkept.live_eq, hsecret.live_eq, hpublic.live_eq]
  obtain ⟨s₄, hfirst, hlive₄, hcontents₄⟩ := h.dealloc s₃ publicKeyPtr publicKeyLen (by simp [hlive])
  -- The secret key stands first, and is longer
  have hne : (⟨secretKeyPtr, secretKeyLen⟩ == (⟨publicKeyPtr, publicKeyLen⟩ : Block)) = false := by
    simp [publicKeyLen, secretKeyLen]
  rw [hlive, List.erase_cons, hne, if_neg Bool.false_ne_true, List.erase_cons_head] at hlive₄
  obtain ⟨s', hsecond, hlive', hcontents'⟩ := h.dealloc s₄ secretKeyPtr secretKeyLen (by simp [hlive₄])
  rw [hlive₄, List.erase_cons_head] at hlive'
  refine ⟨s', hfirst.bind hsecond, hlive', fun block hblock => ?_⟩
  have hblock₂ : block ∈ live s₂ := hsecret.mem_of_mem (hpublic.mem_of_mem hblock)
  have happart : ∀ output ∈ [⟨publicKeyPtr, publicKeyLen⟩, (⟨secretKeyPtr, secretKeyLen⟩ : Block)],
      block.Apart output := by
    rintro output (_ | ⟨_, _ | ⟨_, houtput⟩⟩)
    · exact hpublic.apart block hblock
    · exact hsecret.apart block (hpublic.mem_of_mem hblock)
    · cases houtput
  rw [hcontents' block (by rw [hlive']; exact hblock),
    hcontents₄ block (by rw [hlive₄]; exact List.mem_cons_of_mem _ hblock), hkept.contents block hblock₂ happart,
    hsecret.contents block (hpublic.mem_of_mem hblock), hpublic.contents block hblock]

theorem Sound.keypairAt_ends (h : Sound inst live Trap wasm) (seed : Bytes) {publicKeyPtr secretKeyPtr : Nat} {s₂ : σ}
    (hpublic : Allocated inst live publicKeyPtr publicKeyLen s s₁)
    (hsecret : Allocated inst live secretKeyPtr secretKeyLen s₁ s₂) :
    ∃ r s', (WasmApi.keypairAt inst seed publicKeyPtr secretKeyPtr).Ends s₂ r s' ∧
      Kept inst live [⟨publicKeyPtr, publicKeyLen⟩, ⟨secretKeyPtr, secretKeyLen⟩] s₂ s' ∧
      Outcome Trap (keypairOfSeed wasm seed) r := by
  refine h.withInput_ends s₂ fun seedPtr s₃ hseed hread => ?_
  have hcomputes := h.generateKeypairFromSeed s₃ ⟨seedPtr, seed.length⟩ ⟨publicKeyPtr, publicKeyLen⟩
    ⟨secretKeyPtr, secretKeyLen⟩ hseed.mem (hseed.mem_of_mem (hsecret.mem_of_mem hpublic.mem))
    (hseed.mem_of_mem hsecret.mem) rfl rfl (hsecret.apart _ hpublic.mem)
  rw [hread] at hcomputes
  refine hcomputes.checked (fun s' hresult => ?_) fun status hresult => ?_
  · rw [keypairOfSeed]
    cases hkeys : wasm.generateKeypairFromSeed seed with
    | error status =>
      rw [hkeys] at hresult
      cases hresult
    | ok keys =>
      rw [hkeys] at hresult
      injection hresult with hresult
      injection hresult with hfirst hrest
      injection hrest with hsecond
      refine (readBytes_ends publicKeyPtr publicKeyLen s').bind ((readBytes_ends secretKeyPtr secretKeyLen s').bind ?_)
      exact Action.pure_ends.2 ⟨by rw [← hfirst, ← hsecond]; rfl, rfl⟩
  · rw [keypairOfSeed]
    cases hkeys : wasm.generateKeypairFromSeed seed with
    | error status' =>
      rw [hkeys] at hresult
      cases hresult
      rfl
    | ok keys =>
      rw [hkeys] at hresult
      cases hresult

/-- **Key generation** frees the keys it read, unless the second allocation traps: then the first block stays. -/
theorem Sound.generateKeypair_refines (h : Sound inst live Trap wasm) (seed : Bytes) (s : σ) :
    ∃ r s', (WasmApi.generateKeypair inst seed).Ends s r s' ∧ Outcome Trap (keypairOfSeed wasm seed) r ∧
      (Added inst live [] s s' ∨
        (∃ e, Trap e ∧ r = .error e) ∧ ∃ ptr, Added inst live [⟨ptr, publicKeyLen⟩] s s') := by
  obtain ⟨r, s₁, hfirst, ⟨e, htrap, rfl, hkept⟩ | ⟨publicKeyPtr, rfl, hpublic⟩⟩ := h.alloc s publicKeyLen
  · exact ⟨_, s₁, hfirst.bind_throws, Or.inl ⟨e, htrap, rfl⟩, Or.inl hkept.added⟩
  obtain ⟨r, s₂, hsecond, ⟨e, htrap, rfl, hkept⟩ | ⟨secretKeyPtr, rfl, hsecret⟩⟩ := h.alloc s₁ secretKeyLen
  · refine ⟨_, s₂, hfirst.bind hsecond.bind_throws, Or.inl ⟨e, htrap, rfl⟩, Or.inr ⟨⟨e, htrap, rfl⟩, publicKeyPtr, ?_⟩⟩
    exact Added.trans ⟨hpublic.live_eq, hpublic.contents⟩ hkept.added
  · obtain ⟨r, s₃, hbody, hkept, houtcome⟩ := h.keypairAt_ends seed hpublic hsecret
    obtain ⟨s', hdealloc, hadded⟩ := h.dealloc_keys hpublic hsecret hkept
    exact ⟨r, s', hfirst.bind (hsecond.bind (hbody.ensuring hdealloc)), houtcome, Or.inl hadded⟩

end

/-! ### Sequences of calls -/

/-- A call of `WasmApi`, with the seed it draws. -/
inductive ApiCall
  | generateKeypair (seed : Bytes)
  | hashPubkey (publicKey : Bytes)
  | ckbHash (data : Bytes)
  | signMessage (secretKey message seed : Bytes)
  | verifySignature (publicKey message signature : Bytes)

namespace ApiCall

def Result : ApiCall → Type
  | generateKeypair _ => DilithiumKeypair
  | hashPubkey _ => Bytes
  | ckbHash _ => Bytes
  | signMessage _ _ _ => Bytes
  | verifySignature _ _ _ => Bool

/-- The call through the memory of an instance. -/
def perform (inst : WasmInstance σ) : (call : ApiCall) → Action σ JsError call.Result
  | generateKeypair seed => WasmApi.generateKeypair inst seed
  | hashPubkey publicKey => WasmApi.hashPubkey inst publicKey
  | ckbHash data => WasmApi.ckbHash inst data
  | signMessage secretKey message seed => WasmApi.signMessage inst secretKey message seed
  | verifySignature publicKey message signature => WasmApi.verifySignature inst publicKey message signature

/-- The call as the SDK makes it on the module. -/
def expected (wasm : WasmModule) : (call : ApiCall) → Js call.Result
  | generateKeypair seed => keypairOfSeed wasm seed
  | hashPubkey publicKey => callWasm (wasm.hashPubkey publicKey)
  | ckbHash data => callWasm (wasm.ckbHash data)
  | signMessage secretKey message seed => callWasm (wasm.signMessageWithSeed secretKey message seed)
  | verifySignature publicKey message signature => verdict (wasm.verifySignature publicKey message signature)

end ApiCall

/-- Calls one after another on one instance, with their results. -/
inductive Calls (inst : WasmInstance σ) : σ → List (Σ call : ApiCall, Js call.Result) → σ → Prop
  | nil (s : σ) : Calls inst s [] s
  | cons {call : ApiCall} {r : Js call.Result} {s s₁ s' : σ} {rest : List (Σ call : ApiCall, Js call.Result)}
      (first : (call.perform inst).Ends s r s₁) (others : Calls inst s₁ rest s') : Calls inst s (⟨call, r⟩ :: rest) s'

/-- What is not freed: at most one block for each key generation that trapped. -/
inductive Leaks (Trap : JsError → Prop) : List (Σ call : ApiCall, Js call.Result) → List Block → Prop
  | nil : Leaks Trap [] []
  | freed {step : Σ call : ApiCall, Js call.Result} {rest : List (Σ call : ApiCall, Js call.Result)}
      {blocks : List Block} (others : Leaks Trap rest blocks) : Leaks Trap (step :: rest) blocks
  | kept {seed : Bytes} {e : JsError} {ptr : Nat} {rest : List (Σ call : ApiCall, Js call.Result)}
      {blocks : List Block} (trap : Trap e) (others : Leaks Trap rest blocks) :
      Leaks Trap (⟨.generateKeypair seed, .error e⟩ :: rest) (blocks ++ [⟨ptr, publicKeyLen⟩])

section

variable {inst : WasmInstance σ} {live : σ → List Block} {Trap : JsError → Prop} {wasm : WasmModule} {s s' : σ}

/-- One call. -/
theorem Sound.perform_refines (h : Sound inst live Trap wasm) (call : ApiCall) (s : σ) :
    ∃ r s', (call.perform inst).Ends s r s' ∧ Outcome Trap (call.expected wasm) r ∧
      ∃ blocks, Leaks Trap [⟨call, r⟩] blocks ∧ Added inst live blocks s s' := by
  cases call with
  | generateKeypair seed =>
    obtain ⟨r, s', hends, houtcome, hadded | ⟨⟨e, htrap, rfl⟩, ptr, hadded⟩⟩ := h.generateKeypair_refines seed s
    · exact ⟨r, s', hends, houtcome, [], .freed .nil, hadded⟩
    · exact ⟨_, s', hends, houtcome, _, .kept htrap .nil, hadded⟩
  | hashPubkey publicKey =>
    obtain ⟨r, s', hends, hkept, houtcome⟩ := h.hash_refines h.hashPubkey publicKey s
    exact ⟨r, s', hends, houtcome, [], .freed .nil, hkept.added⟩
  | ckbHash data =>
    obtain ⟨r, s', hends, hkept, houtcome⟩ := h.hash_refines h.ckbHash data s
    exact ⟨r, s', hends, houtcome, [], .freed .nil, hkept.added⟩
  | signMessage secretKey message seed =>
    obtain ⟨r, s', hends, hkept, houtcome⟩ := h.signMessage_refines secretKey message seed s
    exact ⟨r, s', hends, houtcome, [], .freed .nil, hkept.added⟩
  | verifySignature publicKey message signature =>
    obtain ⟨r, s', hends, hkept, houtcome⟩ := h.verifySignature_refines publicKey message signature s
    exact ⟨r, s', hends, houtcome, [], .freed .nil, hkept.added⟩

theorem Leaks.cons {step : Σ call : ApiCall, Js call.Result} {rest : List (Σ call : ApiCall, Js call.Result)}
    {blocks blocks' : List Block} (h : Leaks Trap [step] blocks) (h' : Leaks Trap rest blocks') :
    Leaks Trap (step :: rest) (blocks' ++ blocks) := by
  cases h with
  | freed others =>
    cases others
    rw [List.append_nil]
    exact .freed h'
  | kept htrap others =>
    cases others
    exact .kept htrap h'

theorem Sound.calls_end (h : Sound inst live Trap wasm) (calls : List ApiCall) (s : σ) :
    ∃ trace s', Calls inst s trace s' ∧ trace.map Sigma.fst = calls := by
  induction calls generalizing s with
  | nil => exact ⟨[], s, .nil s, rfl⟩
  | cons call calls ih =>
    obtain ⟨r, s₁, hends, -⟩ := h.perform_refines call s
    obtain ⟨trace, s', hcalls, htrace⟩ := ih s₁
    exact ⟨⟨call, r⟩ :: trace, s', .cons hends hcalls, congrArg (call :: ·) htrace⟩

theorem Sound.calls_outcomes (h : Sound inst live Trap wasm) {trace : List (Σ call : ApiCall, Js call.Result)}
    (hcalls : Calls inst s trace s') :
    (∀ step ∈ trace, Outcome Trap (step.1.expected wasm) step.2) ∧
      ∃ blocks, Leaks Trap trace blocks ∧ Added inst live blocks s s' := by
  induction hcalls with
  | nil s => exact ⟨by simp, [], .nil, ⟨rfl, fun _ _ => rfl⟩⟩
  | @cons call r s s₁ s' rest hfirst hrest ih =>
    obtain ⟨r', s₁', hends, houtcome, blocks, hleaks, hadded⟩ := h.perform_refines call s
    obtain ⟨rfl, rfl⟩ := hfirst.unique hends
    obtain ⟨houtcomes, blocks', hleaks', hadded'⟩ := ih
    exact ⟨List.forall_mem_cons.2 ⟨houtcome, houtcomes⟩, blocks' ++ blocks, hleaks.cons hleaks', hadded.trans hadded'⟩

/-- **The bridge over whole runs**: any calls can be made one after another from any state, each returns what the module
computes or traps, and afterwards the blocks that were live are live with their contents. No other block is, unless
a key generation trapped. -/
theorem calls_refine (h : Sound inst live Trap wasm) (calls : List ApiCall) (s : σ) :
    (∃ trace s', Calls inst s trace s' ∧ trace.map Sigma.fst = calls) ∧
      ∀ trace s', Calls inst s trace s' →
        (∀ step ∈ trace, Outcome Trap (step.1.expected wasm) step.2) ∧
          ∃ blocks, Leaks Trap trace blocks ∧ Added inst live blocks s s' :=
  ⟨h.calls_end calls s, fun _ _ hcalls => h.calls_outcomes hcalls⟩

end

/-! ### An instance -/

/-- A memory that only grows, with the blocks in it that are live. -/
structure GrowingMemory where
  memory : Bytes
  live : List Block
  fits : ∀ block ∈ live, block.Fits memory

namespace GrowingMemory

/-- Blocks that no longer fit are lost. -/
def store (s : GrowingMemory) (memory : Bytes) : GrowingMemory where
  memory := memory
  live := s.live.filter fun block => block.start + block.size ≤ memory.length
  fits block hblock := by simpa [Block.Fits] using (List.mem_filter.1 hblock).2

def put (s : GrowingMemory) (ptr : Nat) (bytes : Bytes) : GrowingMemory := s.store (writeBlock s.memory ptr bytes)

def grow (s : GrowingMemory) (length : Nat) : GrowingMemory where
  memory := s.memory ++ List.replicate length 0
  live := ⟨s.memory.length, length⟩ :: s.live
  fits := by
    refine List.forall_mem_cons.2 ⟨?_, fun block hblock => ?_⟩
    · simp [Block.Fits]
    · exact (s.fits block hblock).trans (by simp)

def free (s : GrowingMemory) (block : Block) : GrowingMemory where
  memory := s.memory
  live := s.live.erase block
  fits other hother := s.fits other (List.mem_of_mem_erase hother)

/-- The results are written to the outputs. -/
def answer (outputs : List Nat) (result : Bytes → Except Nat (List Bytes)) : Action GrowingMemory JsError Nat :=
  Action.update fun s =>
    match result s.memory with
    | .ok values => (.ok 0, (outputs.zip values).foldl (fun s write => s.put write.1 write.2) s)
    | .error status => (.ok status, s)

end GrowingMemory

/-- The module on a memory of at most `limit` bytes. -/
def growingInstance (wasm : WasmModule) (limit : Nat) : WasmInstance GrowingMemory where
  memory := GrowingMemory.memory
  store := GrowingMemory.store
  alloc length := Action.update fun s =>
    if s.memory.length + length ≤ limit then (.ok s.memory.length, s.grow length) else (raise (lit "unreachable"), s)
  dealloc ptr len := Action.update fun s => (.ok (), s.free ⟨ptr, len⟩)
  sigLen := signatureLen
  argsLen := lockArgsLen
  generateKeypairFromSeed seedPtr seedLen publicKeyOutPtr secretKeyOutPtr :=
    GrowingMemory.answer [publicKeyOutPtr, secretKeyOutPtr] fun memory =>
      (wasm.generateKeypairFromSeed (readBlock memory ⟨seedPtr, seedLen⟩)).map fun keys => [keys.1, keys.2]
  hashPubkey pubkeyPtr pubkeyLen outPtr :=
    GrowingMemory.answer [outPtr] fun memory => (wasm.hashPubkey (readBlock memory ⟨pubkeyPtr, pubkeyLen⟩)).map ([·])
  ckbHash dataPtr dataLen outPtr :=
    GrowingMemory.answer [outPtr] fun memory => (wasm.ckbHash (readBlock memory ⟨dataPtr, dataLen⟩)).map ([·])
  signMessageWithSeed secretKeyPtr secretKeyLen messagePtr messageLen seedPtr seedLen outPtr :=
    GrowingMemory.answer [outPtr] fun memory =>
      (wasm.signMessageWithSeed (readBlock memory ⟨secretKeyPtr, secretKeyLen⟩)
        (readBlock memory ⟨messagePtr, messageLen⟩)
        (readBlock memory ⟨seedPtr, seedLen⟩)).map ([·])
  verifySignature publicKeyPtr publicKeyLen messagePtr messageLen signaturePtr signatureLen :=
    Action.update fun s => (.ok (wasm.verifySignature (readBlock s.memory ⟨publicKeyPtr, publicKeyLen⟩)
      (readBlock s.memory ⟨messagePtr, messageLen⟩) (readBlock s.memory ⟨signaturePtr, signatureLen⟩)), s)

section

variable {wasm : WasmModule} {limit : Nat} {s : GrowingMemory}

/-- The results have the lengths of their outputs, and no error has the status of success. -/
structure Sized (sizes : List Nat) (result : Except Nat (List Bytes)) : Prop where
  lengths : ∀ values, result = .ok values → values.map List.length = sizes
  status : result ≠ .error 0

theorem put_live {block : Block} {bytes : Bytes} (hblock : block ∈ s.live) (hlength : bytes.length = block.size) :
    (s.put block.start bytes).live = s.live := by
  have hfits : block.start + bytes.length ≤ s.memory.length := hlength ▸ s.fits block hblock
  refine List.filter_eq_self.2 fun other hother => decide_eq_true ?_
  rw [writeBlock_length hfits]
  exact s.fits other hother

theorem put_kept {block : Block} {bytes : Bytes} (hblock : block ∈ s.live) (hlength : bytes.length = block.size) :
    Kept (growingInstance wasm limit) GrowingMemory.live [block] s (s.put block.start bytes) where
  live_eq := put_live hblock hlength
  contents other _ hapart := by
    have hfits : block.start + bytes.length ≤ s.memory.length := hlength ▸ s.fits block hblock
    refine readBlock_writeBlock_apart hfits ?_
    rw [hlength]
    exact hapart block List.mem_cons_self

theorem put_read {block : Block} {bytes : Bytes} (hblock : block ∈ s.live) (hlength : bytes.length = block.size) :
    readBlock (s.put block.start bytes).memory block = bytes := by
  have hfits : block.start + bytes.length ≤ s.memory.length := hlength ▸ s.fits block hblock
  have hread := readBlock_writeBlock hfits
  rw [hlength] at hread
  exact hread

/-- Writing to outputs that are apart. -/
theorem puts_kept (wasm : WasmModule) (limit : Nat) {outputs : List Block} {values : List Bytes}
    (houtputs : ∀ output ∈ outputs, output ∈ s.live) (hapart : outputs.Pairwise Block.Apart)
    (hlengths : values.map List.length = outputs.map Block.size) :
    Kept (growingInstance wasm limit) GrowingMemory.live outputs s
      (((outputs.map Block.start).zip values).foldl (fun s write => s.put write.1 write.2) s) ∧
    outputs.map (readBlock
      (((outputs.map Block.start).zip values).foldl (fun s write => s.put write.1 write.2) s).memory) = values := by
  induction outputs generalizing s values with
  | nil =>
    obtain rfl : values = [] := List.map_eq_nil_iff.1 hlengths
    exact ⟨⟨rfl, fun _ _ _ => rfl⟩, rfl⟩
  | cons output outputs ih =>
    obtain ⟨value, values, rfl⟩ : ∃ value rest, values = value :: rest := by
      cases values with
      | nil => cases hlengths
      | cons value rest => exact ⟨value, rest, rfl⟩
    injection hlengths with hlength hlengths
    obtain ⟨houtput, houtputs⟩ := List.forall_mem_cons.1 houtputs
    obtain ⟨hfirst, hapart⟩ := List.pairwise_cons.1 hapart
    have hlive : (s.put output.start value).live = s.live := put_live houtput hlength
    obtain ⟨hkept, hread⟩ := ih (s := s.put output.start value) (hlive ▸ houtputs) hapart hlengths
    have hput : Kept (growingInstance wasm limit) GrowingMemory.live [output] s (s.put output.start value) :=
      put_kept houtput hlength
    constructor
    · refine ⟨hkept.live_eq.trans hlive, fun block hblock hblocks => ?_⟩
      obtain ⟨hblockFirst, hblockRest⟩ := List.forall_mem_cons.1 hblocks
      exact (hkept.contents block (hlive ▸ hblock) hblockRest).trans
        (hput.contents block hblock (List.forall_mem_cons.2 ⟨hblockFirst, by simp⟩))
    · refine List.cons_eq_cons.2 ⟨?_, hread⟩
      exact (hkept.contents output (hlive ▸ houtput) hfirst).trans (put_read houtput hlength)

theorem answer_computes (outputs : List Block) (result : Bytes → Except Nat (List Bytes)) {Trap : JsError → Prop}
    (houtputs : ∀ output ∈ outputs, output ∈ s.live) (hapart : outputs.Pairwise Block.Apart)
    (hsized : Sized (outputs.map Block.size) (result s.memory)) :
    Computes (growingInstance wasm limit) GrowingMemory.live Trap
      (GrowingMemory.answer (outputs.map Block.start) result)
      outputs (result s.memory) s := by
  cases hresult : result s.memory with
  | error status =>
    refine ⟨.ok status, s, Action.update_ends.2 (by rw [hresult]), ⟨rfl, fun _ _ _ => rfl⟩, Or.inr (Or.inr ?_)⟩
    refine ⟨status, ?_, rfl, rfl⟩
    rintro rfl
    exact hsized.status hresult
  | ok values =>
    obtain ⟨hkept, hread⟩ := puts_kept wasm limit houtputs hapart (hsized.lengths values hresult)
    exact ⟨.ok 0, _, Action.update_ends.2 (by rw [hresult]), hkept,
      Or.inr (Or.inl ⟨rfl, congrArg Except.ok hread.symm⟩)⟩

theorem readBlock_grow {block : Block} (length : Nat) (hblock : block ∈ s.live) :
    readBlock (s.grow length).memory block = readBlock s.memory block := by
  have hfits : block.start + block.size ≤ s.memory.length := s.fits block hblock
  rw [readBlock, readBlock, GrowingMemory.grow, List.drop_append_of_le_length (by omega),
    List.take_append_of_le_length (by rw [List.length_drop]; omega)]

/-- The results of the module have the lengths of the outputs. -/
structure SizedModule (wasm : WasmModule) : Prop where
  hashPubkey : ∀ data, Sized [lockArgsLen] ((wasm.hashPubkey data).map ([·]))
  ckbHash : ∀ data, Sized [lockArgsLen] ((wasm.ckbHash data).map ([·]))
  signMessageWithSeed : ∀ secretKey message seed,
    Sized [signatureLen] ((wasm.signMessageWithSeed secretKey message seed).map ([·]))
  generateKeypairFromSeed : ∀ seed,
    Sized [publicKeyLen, secretKeyLen] ((wasm.generateKeypairFromSeed seed).map fun keys => [keys.1, keys.2])

/-- One output. -/
theorem answer_computes_singleton (output : Block) (result : Bytes → Except Nat (List Bytes)) {Trap : JsError → Prop}
    {size : Nat} (houtput : output ∈ s.live) (hsize : output.size = size) (hsized : Sized [size] (result s.memory)) :
    Computes (growingInstance wasm limit) GrowingMemory.live Trap (GrowingMemory.answer [output.start] result)
      [output] (result s.memory) s := by
  refine answer_computes [output] result (List.forall_mem_singleton.2 houtput) (List.pairwise_singleton _ _) ?_
  rw [List.map_singleton, hsize]
  exact hsized

/-- An allocation beyond the limit traps. -/
theorem growingInstance_sound (h : SizedModule wasm) (limit : Nat) :
    Sound (growingInstance wasm limit) GrowingMemory.live (· = .error (lit "unreachable")) wasm where
  fits s := s.fits
  memory_store _ _ := rfl
  live_store s ptr bytes hmem := put_live hmem rfl
  argsLen := rfl
  sigLen := rfl
  alloc s length := by
    by_cases hroom : s.memory.length + length ≤ limit
    · refine ⟨.ok s.memory.length, s.grow length, Action.update_ends.2 (if_pos hroom), Or.inr ⟨_, rfl, rfl, ?_, ?_⟩⟩
      · exact fun block hblock => Or.inr (Or.inr (Or.inl (s.fits block hblock)))
      · exact fun block hblock => readBlock_grow length hblock
    · exact ⟨_, s, Action.update_ends.2 (if_neg hroom), Or.inl ⟨_, rfl, rfl, rfl, fun _ _ _ => rfl⟩⟩
  dealloc s ptr len _ := ⟨s.free ⟨ptr, len⟩, Action.update_ends.2 rfl, rfl, fun _ _ => rfl⟩
  hashPubkey s input output _ houtput hsize := answer_computes_singleton output
    (fun memory => (wasm.hashPubkey (readBlock memory input)).map ([·])) houtput hsize (h.hashPubkey _)
  ckbHash s input output _ houtput hsize := answer_computes_singleton output
    (fun memory => (wasm.ckbHash (readBlock memory input)).map ([·])) houtput hsize (h.ckbHash _)
  signMessageWithSeed s secretKey message seed output _ _ _ houtput hsize := answer_computes_singleton output
    (fun memory => (wasm.signMessageWithSeed (readBlock memory secretKey) (readBlock memory message)
      (readBlock memory seed)).map ([·])) houtput hsize (h.signMessageWithSeed _ _ _)
  verifySignature s publicKey message signature _ _ _ :=
    ⟨_, s, Action.update_ends.2 rfl, ⟨rfl, fun _ _ _ => rfl⟩, Or.inr rfl⟩
  generateKeypairFromSeed s seed publicKey secretKey _ hpublic hsecret hpublicSize hsecretSize hapart := by
    refine answer_computes [publicKey, secretKey]
      (fun memory => (wasm.generateKeypairFromSeed (readBlock memory seed)).map fun keys => [keys.1, keys.2])
      (List.forall_mem_cons.2 ⟨hpublic, List.forall_mem_singleton.2 hsecret⟩) (List.pairwise_pair.2 hapart) ?_
    rw [List.map_cons, List.map_singleton, hpublicSize, hsecretSize]
    exact h.generateKeypairFromSeed _

end

theorem sampleBlake2b_sized (data : Bytes) : Sized [lockArgsLen] ((Except.ok (sampleBlake2b data)).map ([·])) := by
  refine ⟨fun values hvalues => ?_, nofun⟩
  cases hvalues
  rw [List.map_singleton, sampleBlake2b]
  split <;> decide

theorem zeroModule_sized : SizedModule zeroModule where
  hashPubkey := sampleBlake2b_sized
  ckbHash := sampleBlake2b_sized
  signMessageWithSeed secretKey message seed := by
    change Sized _ (Except.map _ (sampleWasm.signMessageWithSeed secretKey message seed))
    rw [sampleWasm_sign]
    split
    · refine ⟨fun values hvalues => ?_, nofun⟩
      cases hvalues
      rw [List.map_singleton, sampleSignature_length]
    · exact ⟨nofun, by decide⟩
  generateKeypairFromSeed _ := by
    refine ⟨fun values hvalues => ?_, nofun⟩
    cases hvalues
    rw [List.map_cons, List.map_singleton, zeroPublicKey_length, zeroSecretKey_length]

theorem grow_memory_length (s : GrowingMemory) (length : Nat) :
    (s.grow length).memory.length = s.memory.length + length := by
  rw [GrowingMemory.grow, List.length_append, List.length_replicate]

/-- Key generation when there is no room for the second key. -/
theorem generateKeypair_full {inst : WasmInstance GrowingMemory} {s s₁ s₂ : GrowingMemory} {ptr : Nat} {e : JsError}
    (hfirst : (inst.alloc publicKeyLen).Ends s (.ok ptr) s₁) (hsecond : (inst.alloc secretKeyLen).Ends s₁ (.error e) s₂)
    (seed : Bytes) : Calls inst s [⟨.generateKeypair seed, .error e⟩] s₂ :=
  .cons (hfirst.bind hsecond.bind_throws) (.nil s₂)

/-- With room for the public key only, its block is kept. -/
theorem growingInstance_keypair : ∃ s', Calls (growingInstance zeroModule 4000) ⟨[], [], nofun⟩
    [⟨.generateKeypair (List.replicate 32 0), .error (.error (lit "unreachable"))⟩] s' ∧
      s'.live = [⟨0, publicKeyLen⟩] := by
  have hfirst : ((growingInstance zeroModule 4000).alloc publicKeyLen).Ends ⟨[], [], nofun⟩ (.ok 0)
      (GrowingMemory.grow ⟨[], [], nofun⟩ publicKeyLen) := Action.update_ends.2 (if_pos (by decide))
  have hsecond : ∀ s : GrowingMemory, s.memory.length = publicKeyLen →
      ((growingInstance zeroModule 4000).alloc secretKeyLen).Ends s (.error (.error (lit "unreachable"))) s :=
    fun s hlength => Action.update_ends.2 (if_neg (by rw [hlength]; decide))
  have hlength : (GrowingMemory.grow ⟨[], [], nofun⟩ publicKeyLen).memory.length = publicKeyLen := by
    rw [grow_memory_length, List.length_nil, Nat.zero_add]
  exact ⟨_, generateKeypair_full hfirst (hsecond _ hlength) _, rfl⟩

theorem calls_refine_growingInstance : ∃ s', Calls (growingInstance zeroModule 4000) ⟨[], [], nofun⟩
    [⟨.generateKeypair (List.replicate 32 0), .error (.error (lit "unreachable"))⟩] s' ∧
      ∃ blocks, Added (growingInstance zeroModule 4000) GrowingMemory.live blocks ⟨[], [], nofun⟩ s' ∧
        blocks = [⟨0, publicKeyLen⟩] := by
  obtain ⟨s', hcalls, hlive⟩ := growingInstance_keypair
  obtain ⟨-, hall⟩ := calls_refine (growingInstance_sound zeroModule_sized 4000)
    [.generateKeypair (List.replicate 32 0)] ⟨[], [], nofun⟩
  obtain ⟨-, blocks, -, hadded⟩ := hall _ s' hcalls
  exact ⟨s', hcalls, blocks, hadded, by simpa [hlive] using hadded.live_eq.symm⟩

end CkbDilithium.System
