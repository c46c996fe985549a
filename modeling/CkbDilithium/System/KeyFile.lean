import CkbDilithium.Lib.JsonText
import CkbDilithium.System.Effects
import CkbDilithium.System.Waiting
import CkbDilithium.System.Acceptance

/-!
# The key file

What `keygen` writes is read back as the pair it generated, after any commands in between that are no key
generations, since no other command writes a file. A key file is accepted when the two texts begin with the digits
of keys of the right lengths; what follows the digits is ignored (`keypairOfContent_eq_ok`).
-/

namespace CkbDilithium.System

open Sdk Sdk.Cli Js

/-! ### Reading back what is written -/

/-- The object in a key file. -/
def keyFileJson (keypair : DilithiumKeypair) : Json :=
  .object [(lit "publicKey", .string (bytesToHex keypair.publicKey)),
    (lit "secretKey", .string (bytesToHex keypair.secretKey))]

theorem parse_keyFileContent (keypair : DilithiumKeypair) :
    Json.parse (keyFileContent keypair) = some (keyFileJson keypair) := by
  have hplain : (keyFileJson keypair).Plain := by
    refine .object fun member hmember => ?_
    rcases List.mem_cons.1 hmember with rfl | hmember
    · exact .string _
    · rw [List.mem_singleton.1 hmember]
      exact .string _
  exact Json.parse_stringify hplain (by decide) (by decide)

theorem cliHexToBytes_eq_ok {value filePath field : JsString} {bytes : Bytes} :
    Cli.hexToBytes value filePath field = .ok bytes ↔ ∃ hex, value = lit "0x" ++ hex ∧ bytes = bufferFromHex hex := by
  simp only [Cli.hexToBytes, Result.ite_throw_eq_ok, not_not, List.isPrefixOf_iff_prefix, Result.pure_eq_ok]
  constructor
  · rintro ⟨⟨hex, rfl⟩, rfl⟩
    exact ⟨hex, rfl, rfl⟩
  · rintro ⟨hex, rfl, rfl⟩
    exact ⟨⟨hex, rfl⟩, rfl⟩

/-- **The key files that are accepted.** -/
theorem keypairOfContent_eq_ok {filePath : JsString} {content : Json} {keypair : DilithiumKeypair} :
    keypairOfContent filePath content = .ok keypair ↔
      ∃ publicHex secretHex, content.member? (lit "publicKey") = some (.string (lit "0x" ++ publicHex)) ∧
        content.member? (lit "secretKey") = some (.string (lit "0x" ++ secretHex)) ∧
        keypair = ⟨bufferFromHex publicHex, bufferFromHex secretHex⟩ ∧
        keypair.publicKey.length = publicKeyLen ∧ keypair.secretKey.length = secretKeyLen := by
  constructor
  · intro h
    unfold keypairOfContent at h
    split at h
    · exact absurd h raise_ne_ok
    · split at h
      · rename_i publicText secretText hpublic hsecret
        simp only [Result.bind_eq_ok, cliHexToBytes_eq_ok, Result.ite_throw_eq_ok, not_not, Result.pure_eq_ok,
          ne_eq] at h
        obtain ⟨_, ⟨publicHex, rfl, rfl⟩, _, ⟨secretHex, rfl, rfl⟩, hpk, hsk, rfl⟩ := h
        exact ⟨publicHex, secretHex, hpublic, hsecret, rfl, hpk, hsk⟩
      · cases h
  · rintro ⟨publicHex, secretHex, hpublic, hsecret, rfl, hpk, hsk⟩
    unfold keypairOfContent
    split
    · cases hpublic
    · simp only [hpublic, hsecret, Result.bind_eq_ok, cliHexToBytes_eq_ok, Result.ite_throw_eq_ok, not_not,
        Result.pure_eq_ok, ne_eq]
      exact ⟨_, ⟨publicHex, rfl, rfl⟩, _, ⟨secretHex, rfl, rfl⟩, hpk, hsk, rfl⟩

theorem keypairOfContent_keyFile_iff {filePath : JsString} {keypair found : DilithiumKeypair} :
    keypairOfContent filePath (keyFileJson keypair) = .ok found ↔
      found = keypair ∧ keypair.publicKey.length = publicKeyLen ∧ keypair.secretKey.length = secretKeyLen := by
  rw [keypairOfContent_eq_ok]
  constructor
  · rintro ⟨publicHex, secretHex, hpublic, hsecret, rfl, hpk, hsk⟩
    obtain rfl : hexDigits keypair.publicKey = publicHex :=
      List.append_cancel_left (Json.string.inj (Option.some.inj hpublic))
    obtain rfl : hexDigits keypair.secretKey = secretHex :=
      List.append_cancel_left (Json.string.inj (Option.some.inj hsecret))
    rw [bufferFromHex_hexDigits, bufferFromHex_hexDigits] at *
    exact ⟨rfl, hpk, hsk⟩
  · rintro ⟨rfl, hpk, hsk⟩
    refine ⟨hexDigits found.publicKey, hexDigits found.secretKey, rfl, rfl, ?_, hpk, hsk⟩
    rw [bufferFromHex_hexDigits, bufferFromHex_hexDigits]

section

variable {env : Environment} {s s' : Session}

theorem act_ends {α : Type} {event : Event} {answer : List Event → Js α} {r : Js α} :
    (act event answer).Ends s r s' ↔ r = answer s.events ∧ s' = { s with events := s.events ++ [event] } := by
  rw [act, Action.update_ends, Prod.mk.injEq, eq_comm, @eq_comm _ s']

theorem ioResult_eq_ok {α : Type} {result : Except JsString α} {a : α} : ioResult result = .ok a ↔ result = .ok a := by
  cases result with
  | error message => simp [ioResult]
  | ok value => simp [ioResult]

theorem jsonParse_eq_ok {text : JsString} {value : Json} :
    jsonParse env text = .ok value ↔ Json.parse text = some value := by
  rw [jsonParse]
  cases Json.parse text with
  | none => simp [throw, throwThe, MonadExceptOf.throw]
  | some parsed => simp

theorem readKeypair_returns {filePath : JsString} {keypair : DilithiumKeypair} :
    (readKeypair env filePath).Ends s (.ok keypair) s' ↔
      ∃ text content, env.readFile s.events filePath = .ok text ∧ Json.parse text = some content ∧
        keypairOfContent filePath content = .ok keypair ∧
        s' = { s with events := s.events ++ [.readFile filePath] } := by
  simp only [readKeypair, Action.bind_returns, Action.catching_ends, Action.lift_ends]
  constructor
  · rintro ⟨content, s₁, ⟨_, hok, text, s₂, hread, hparse, rfl⟩ | ⟨e, s₂, -, he, -⟩, hkeypair, rfl⟩
    · cases hok
      obtain ⟨htext, rfl⟩ := act_ends.1 hread
      exact ⟨text, content, ioResult_eq_ok.1 htext.symm, jsonParse_eq_ok.1 hparse.symm, hkeypair.symm, rfl⟩
    · cases he
  · rintro ⟨text, content, hread, hparse, hkeypair, rfl⟩
    refine ⟨content, _, Or.inl ⟨content, rfl, text, _, act_ends.2 ⟨(ioResult_eq_ok.2 hread).symm, rfl⟩,
      (jsonParse_eq_ok.2 hparse).symm, rfl⟩, hkeypair.symm, rfl⟩

/-! ### Key generation -/

/-- The files are changed by writes alone: what is read is what was written last. -/
def KeepsFiles (env : Environment) : Prop :=
  ∀ before after path content, env.writeFile before path content = .ok () →
    (∀ path' content', Event.writeFile path' content' ∉ after) →
    env.readFile (before ++ .writeFile path content :: after) path = .ok content

/-- A run of `keygen` that returns has drawn a seed first, and then written its key pair. -/
theorem runKeygen_returns {wasm : WasmModule} {args : List JsString}
    (h : (runKeygen env wasm args).Ends s (.ok ()) s') :
    ∃ out keypair after, requireOption args (lit "--out") = .ok out ∧
      keypairOfSeed wasm (env.random s.events 32).1 = .ok keypair ∧
      env.writeFile (s.events ++ [.random 32, .mkdir (dirname out)]) out (keyFileContent keypair) = .ok () ∧
      s'.events =
        s.events ++ [.random 32, .mkdir (dirname out)] ++ .writeFile out (keyFileContent keypair) :: after ∧
      ∀ path content, Event.writeFile path content ∉ after := by
  obtain ⟨out, s₀, hlift, hdraw⟩ := Action.bind_returns.1 h
  obtain ⟨hout, rfl⟩ := Action.lift_ends.1 hlift
  obtain ⟨keypair, s₁, hgenerated, hmake⟩ := Action.bind_returns.1 hdraw
  obtain ⟨seed, s₂, hseed, hlifted⟩ := Action.bind_returns.1 hgenerated
  obtain ⟨hdrawn, rfl⟩ := act_ends.1 hseed
  cases hdrawn
  obtain ⟨hkeypair, rfl⟩ := Action.lift_ends.1 hlifted
  obtain ⟨_, s₃, hmkdir, hstore⟩ := Action.bind_returns.1 hmake
  obtain ⟨-, rfl⟩ := act_ends.1 hmkdir
  obtain ⟨_, s₄, hwrite, hrest⟩ := Action.bind_returns.1 hstore
  obtain ⟨hwritten, hs₄⟩ := act_ends.1 hwrite
  have hlogs : Emits (fun event => ∀ path content, event ≠ .writeFile path content) s₄ s' := by
    refine Action.Keeps.bind (R := Emits _) (emitsOnly_consoleLog (by simp)) (fun _ => ?_) _ _ _ hrest
    split
    · exact .pure _
    · split_ifs
      · exact .pure _
      · exact (emitsOnly_consoleLog (by simp)).bind fun _ => emitsOnly_consoleLog (by simp)
  obtain ⟨after, hafter, hquiet, -, -⟩ := hlogs
  have hwritten := ioResult_eq_ok.1 hwritten.symm
  rw [List.append_assoc] at hwritten
  refine ⟨out, keypair, after, hout.symm, hkeypair.symm, hwritten, ?_,
    fun path content hmem => hquiet _ hmem path content rfl⟩
  rw [hafter, hs₄]
  simp

theorem run_keygen_returns {wasm : WasmModule} {fuel : Nat} {args : List JsString}
    (h : (run env wasm fuel (lit "keygen" :: args)).Ends s (.ok 0) s') :
    (runKeygen env wasm args).Ends s (.ok ()) s' := by
  rw [run, main, if_pos rfl] at h
  rcases exitCode_ends.1 h with ⟨-, hkeygen⟩ | ⟨e, s₁, hcode, -⟩
  · exact hkeygen
  · cases hcode

/-- **A generated key is not lost.** After `keygen` and any commands that are no key generations, in any order and
whether they succeed or not, the key file is read as the pair that was generated from the seed, the answer to the
first event of the run; it is refused only if the module made keys of other lengths than its own. -/
theorem keygen_readKeypair {wasm : WasmModule} {fuel : Nat} {args : List JsString} {argvs : List (List JsString)}
    {events : List Event} (hfiles : KeepsFiles env)
    (hkeygen : (run env wasm fuel (lit "keygen" :: args)).Ends s (.ok 0) s')
    (hcommands : Commands env wasm fuel argvs s'.events events)
    (hothers : ∀ argv ∈ argvs, argv.headD [] ≠ lit "keygen") :
    ∃ out seed keypair, optionalOption args (lit "--out") = some out ∧ seed.length = 32 ∧
      s.events ++ [.random 32] <+: s'.events ∧ seed = (env.random s.events 32).1 ∧
      keypairOfSeed wasm seed = .ok keypair ∧
      ∀ nextId found after, (readKeypair env out).Ends ⟨nextId, events⟩ (.ok found) after ↔
        found = keypair ∧ keypair.publicKey.length = publicKeyLen ∧ keypair.secretKey.length = secretKeyLen ∧
          after = ⟨nextId, events ++ [.readFile out]⟩ := by
  obtain ⟨out, keypair, after, hout, hkeypair, hwritten, hevents, hquiet⟩ :=
    runKeygen_returns (run_keygen_returns hkeygen)
  have hfirst : s.events ++ [.random 32] <+: s'.events := by
    rw [hevents, List.append_assoc]
    exact List.prefix_append_right_inj _ |>.2 ⟨_, rfl⟩
  obtain ⟨new, hnew, hpermitted⟩ := hcommands.permitted
  refine ⟨out, _, keypair, (requireOption_eq_ok.1 hout).1, (env.random s.events 32).2, hfirst, rfl, hkeypair,
    fun nextId found final => ?_⟩
  have hread : env.readFile events out = .ok (keyFileContent keypair) := by
    rw [hnew, hevents, List.append_assoc, List.cons_append]
    refine hfiles _ _ _ _ hwritten fun path content hmem => ?_
    rcases List.mem_append.1 hmem with hmem | hmem
    · exact hquiet path content hmem
    · obtain ⟨argv, hargv, hkeygen, -⟩ := hpermitted _ hmem
      exact hothers argv hargv hkeygen
  rw [readKeypair_returns]
  constructor
  · rintro ⟨text, content, htext, hcontent, hfound, rfl⟩
    rw [← Result.ok_unique hread htext, parse_keyFileContent] at hcontent
    rw [← Option.some.inj hcontent] at hfound
    obtain ⟨rfl, hpk, hsk⟩ := keypairOfContent_keyFile_iff.1 hfound
    exact ⟨rfl, hpk, hsk, rfl⟩
  · rintro ⟨rfl, hpk, hsk, rfl⟩
    exact ⟨_, _, hread, parse_keyFileContent found, keypairOfContent_keyFile_iff.2 ⟨rfl, hpk, hsk⟩, rfl⟩

end

/-! ### A machine with files -/

/-- What an event writes to a path. -/
def writtenTo (path : JsString) : Event → Option JsString
  | .writeFile path' content => if path' = path then some content else none
  | _ => none

/-- Files are what was written last, or what was there in the beginning. -/
def machine (reply : (url : JsString) → (id : Nat) → (call : RpcCall) → HttpReply call.Result)
    (initial : JsString → Option JsString) : Environment :=
  { timedEnvironment reply with
    readFile := fun events path =>
      match ((events.reverse.findSome? (writtenTo path)).or (initial path)) with
      | some content => .ok content
      | none => .error (lit "ENOENT: no such file or directory") }

theorem machine_keepsFiles (reply : (url : JsString) → (id : Nat) → (call : RpcCall) → HttpReply call.Result)
    (initial : JsString → Option JsString) : KeepsFiles (machine reply initial) := by
  intro before after path content _ hquiet
  have hnone : after.reverse.findSome? (writtenTo path) = none := by
    rw [List.findSome?_eq_none_iff]
    intro event hevent
    cases event with
    | writeFile path' content' => exact absurd (List.mem_reverse.1 hevent) (hquiet path' content')
    | _ => rfl
  simp [machine, List.findSome?_append, hnone, writtenTo]

/-- A module that generates the zero pair. -/
def zeroModule : WasmModule where
  toWasmExports := sampleWasm
  generateKeypairFromSeed _ := .ok (zeroPublicKey, zeroSecretKey)
  verifySignature _ _ _ := 4

/-- No node answers, and there are no files. -/
def emptyMachine : Environment := machine (fun _ _ _ => .rejected (lit "fetch failed")) fun _ => none

theorem emptyMachine_keygen : ∃ s', (run emptyMachine zeroModule 0 [lit "keygen", lit "--out", lit "key.json"]).Ends
    ⟨0, []⟩ (.ok 0) s' := ⟨_, rfl⟩

theorem emptyMachine_address (events : List Event) : ∃ r s', (run emptyMachine zeroModule 0
    [lit "address", lit "--key-file", lit "key.json"]).Ends ⟨0, events⟩ r s' := ⟨_, _, rfl⟩

/-- A key generation and a command that reads the key. -/
theorem commands_permitted_emptyMachine :
    ∃ segments : List (List Event), List.Forall₂ (fun argv segment =>
      (∀ event ∈ segment, Permitted emptyMachine (argv.headD []) argv.tail event) ∧
        ∃ requests, segment.filterMap Event.requestId = List.range' 1 requests)
      [[lit "keygen", lit "--out", lit "key.json"], [lit "address", lit "--key-file", lit "key.json"]] segments := by
  obtain ⟨s', hkeygen⟩ := emptyMachine_keygen
  obtain ⟨r, s'', haddress⟩ := emptyMachine_address s'.events
  obtain ⟨segments, -, hsegments⟩ := commands_permitted (.cons hkeygen (.cons haddress (.nil _)))
  exact ⟨segments, hsegments⟩

theorem keygen_readKeypair_emptyMachine : ∃ events, (readKeypair emptyMachine (lit "key.json")).Ends ⟨0, events⟩
    (.ok ⟨zeroPublicKey, zeroSecretKey⟩) ⟨0, events ++ [.readFile (lit "key.json")]⟩ := by
  obtain ⟨s', hkeygen⟩ := emptyMachine_keygen
  obtain ⟨r, s'', haddress⟩ := emptyMachine_address s'.events
  obtain ⟨out, _, keypair, hout, -, -, rfl, hkeypair, hread⟩ := keygen_readKeypair (machine_keepsFiles _ _) hkeygen
    (.cons haddress (.nil _)) (by decide)
  cases hkeypair
  have hpath : out = lit "key.json" := (Option.some.inj hout).symm
  subst hpath
  exact ⟨s''.events, (hread 0 _ _).2 ⟨rfl, zeroPublicKey_length, zeroSecretKey_length, rfl⟩⟩

end CkbDilithium.System
