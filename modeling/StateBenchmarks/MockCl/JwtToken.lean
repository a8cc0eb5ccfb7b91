/-
# Tokens of the Engine API

`make_jwt` in `src/mock_cl/jwt_auth.py` builds the token of a request from standard
library parts: compact JSON, base64 for URLs, and an HMAC over the two.  `Accepts` is
the other side, an execution client that shares the secret and wants the token to be
at most a minute away from its clock.

`_rpc` mints a token in every round of its loop.  A call that is retried for longer
than a minute would be refused with the token of its first round.
-/

import StateBenchmarks.Encoding.Base64
import StateBenchmarks.Encoding.Sha256
import StateBenchmarks.MockCl.EngineRpc
import StateBenchmarks.Python.JsonLines

namespace StateBenchmarks.MockCl

open Python JsonText Encoding Control

/-- `text.encode("ascii")`, which for such text is also `text.encode("utf-8")`. -/
def asciiBytes (text : List Char) : Bytes := text.map fun c => UInt8.ofNat c.toNat

/-- The text of ASCII bytes. -/
def asciiText (bytes : Bytes) : Option (List Char) :=
  bytes.mapM fun x => if x.toNat < 128 then some (Char.ofNat x.toNat) else none

theorem asciiText_asciiBytes {text : List Char} (h : Printable text) :
    asciiText (asciiBytes text) = some text := by
  induction text with
  | nil => rfl
  | cons c rest ih =>
      obtain ⟨⟨-, hc⟩, hrest⟩ := printable_cons.mp h
      have hvalue : (UInt8.ofNat c.toNat).toNat = c.toNat := by
        rw [UInt8.toNat_ofNat']
        omega
      rw [asciiBytes, List.map_cons, asciiText, List.mapM_cons, hvalue, if_pos (by omega),
        Char.ofNat_toNat]
      show (asciiText (asciiBytes rest)).bind _ = _
      rw [ih hrest]
      rfl

/-- `_b64url(json.dumps(v, separators=(",", ":")).encode("utf-8"))`. -/
def tokenPart (v : Json) : List Char :=
  Base64.unpadded (asciiBytes (dump .compact (fun _ => []) 0 v))

def jwtHeader : Json := .obj [("alg", .str "HS256"), ("typ", .str "JWT")]

def jwtPayload (iat : ℤ) : Json := .obj [("iat", .int iat)]

/-- `signing_input`. -/
def signingInput (iat : ℤ) : List Char :=
  tokenPart jwtHeader ++ '.' :: tokenPart (jwtPayload iat)

/-- `make_jwt(secret, iat)`. -/
def makeJwt (secret : Bytes) (iat : ℤ) : String :=
  String.ofList (signingInput iat ++
    '.' :: Base64.unpadded (Sha256.hmac secret (asciiBytes (signingInput iat))))

/-- The JSON of a part. -/
def readPart (part : List Char) : Option Json := do
  let bytes ← Base64.decode part
  let text ← asciiText bytes
  loads (fun _ => 0) (String.ofList text)

/-- A field of the JSON of a part. -/
def partField (part : List Char) (name : String) : Option Json :=
  match readPart part with
  | some (.obj fields) => Dict.get? fields name
  | _ => none

/-- The token is signed under the key with HS256, and was issued within a minute of the
time. -/
structure Accepts (key : Bytes) (now : ℤ) (token : String) (header payload signature : List Char)
    (iat : ℤ) : Prop where
  parts : token.toList.splitOn '.' = [header, payload, signature]
  alg : partField header "alg" = some (.str "HS256")
  signed : Base64.decode signature = some (Sha256.hmac key (asciiBytes (header ++ '.' :: payload)))
  issued : partField payload "iat" = some (.int iat)
  recent : |now - iat| ≤ 60

/-- An execution client with this key and this clock lets the token pass. -/
def Authorized (key : Bytes) (now : ℤ) (token : String) : Prop :=
  ∃ header payload signature iat, Accepts key now token header payload signature iat

theorem not_mem_unpadded (bytes : Bytes) : '.' ∉ Base64.unpadded bytes := by
  rw [Base64.unpadded_eq]
  intro hmem
  obtain ⟨n, hn, heq⟩ := Base64.mem_chars hmem
  exact (Base64.digit_ne hn).2 heq.symm

theorem not_mem_tokenPart (v : Json) : '.' ∉ tokenPart v := not_mem_unpadded _

/-- A token has three parts. -/
theorem splitOn_makeJwt (secret : Bytes) (iat : ℤ) :
    (makeJwt secret iat).toList.splitOn '.' =
      [tokenPart jwtHeader, tokenPart (jwtPayload iat),
        Base64.unpadded (Sha256.hmac secret (asciiBytes (signingInput iat)))] := by
  rw [makeJwt, String.toList_ofList, signingInput, List.append_assoc, List.cons_append,
    List.splitOn_append_cons_self_of_not_mem (not_mem_tokenPart _),
    List.splitOn_append_cons_self_of_not_mem (not_mem_tokenPart _),
    List.splitOn_eq_singleton (not_mem_unpadded _)]

/-- A part is read back. -/
theorem readPart_tokenPart {v : Json} (h : Proper (fun _ => False) v) :
    readPart (tokenPart v) = some v := by
  have hprintable : Printable (dump .compact (fun _ => []) 0 v) :=
    printable_dump flat_compact (fun _ => False.elim) h 0
  have hread : loads (fun _ => 0) (dumps .compact (fun _ => []) v) = some v :=
    loads_dumps blank_compact (h.mono fun _ => False.elim)
  rw [readPart, tokenPart, Base64.decode_unpadded]
  show (asciiText _).bind _ = _
  rw [asciiText_asciiBytes hprintable]
  exact hread

theorem partField_header : partField (tokenPart jwtHeader) "alg" = some (.str "HS256") := by
  have hproper : Proper (fun _ => False) jwtHeader := ⟨by decide, trivial, trivial, trivial⟩
  rw [partField, readPart_tokenPart hproper]
  rfl

theorem partField_payload (iat : ℤ) :
    partField (tokenPart (jwtPayload iat)) "iat" = some (.int iat) := by
  have hproper : Proper (fun _ => False) (jwtPayload iat) := by
    have hnodup : ["iat"].Nodup := by decide
    exact ⟨hnodup, trivial, trivial⟩
  rw [partField, readPart_tokenPart hproper]
  rfl

/-- A token passes exactly where its signature is what the key makes of it and its time is
near. -/
theorem authorized_makeJwt_iff (key secret : Bytes) (now iat : ℤ) :
    Authorized key now (makeJwt secret iat) ↔
      Sha256.hmac key (asciiBytes (signingInput iat)) =
          Sha256.hmac secret (asciiBytes (signingInput iat)) ∧ |now - iat| ≤ 60 := by
  constructor
  · rintro ⟨header, payload, signature, issued, haccepts⟩
    have hparts := haccepts.parts
    rw [splitOn_makeJwt, List.cons.injEq, List.cons.injEq, List.cons.injEq] at hparts
    obtain ⟨rfl, rfl, rfl, -⟩ := hparts
    have hsigned := haccepts.signed
    have hissued := haccepts.issued
    rw [Base64.decode_unpadded] at hsigned
    rw [partField_payload] at hissued
    obtain rfl := Json.int.inj (Option.some_inj.mp hissued)
    exact ⟨(Option.some_inj.mp hsigned).symm, haccepts.recent⟩
  · rintro ⟨hmac, hrecent⟩
    refine ⟨_, _, _, iat, splitOn_makeJwt secret iat, partField_header, ?_, partField_payload iat,
      hrecent⟩
    rw [Base64.decode_unpadded, ← signingInput, hmac]

namespace EngineClient

variable (c : EngineClient) (secret : Bytes) (wall : ℕ → ℚ) (start : ℚ) (request : RpcRequest)

/-- `int(time.time())`. -/
def seconds (time : ℚ) : ℤ := time.num.tdiv time.den

/-- One round of `_rpc` with the headers it builds: the token is minted first, at the time
`wall` shows in this round. -/
def signedStep (i : ℕ) (a : Attempt) (s : RpcState × List String) :
    Option (Except Exn Json) × RpcState × List String :=
  let token := makeJwt secret (seconds (wall i))
  if c.remaining start a ≤ 0 then
    (some (.error (c.budgetError request s.1.lastError)), { s.1 with clock := a.before }, s.2)
  else (c.dispose start request a, c.sendIn start request a s.1, s.2 ++ [token])

/-- `_rpc`, with the token of each request it sent. -/
def signedRpc (attempts : List Attempt) : Option (Except Exn Json) × RpcState × List String :=
  forEach (c.signedStep secret wall start request) 0 attempts (⟨none, [], start⟩, [])

/-- The tokens of the first `n` rounds. -/
def minted (n : ℕ) : List String :=
  (List.range n).map fun k => makeJwt secret (seconds (wall k))

variable {secret wall}

/-- The step lemma: a round that goes on has sent one more request, with its own token. -/
theorem signedStep_minted {i : ℕ} {s : RpcState × List String} (a : Attempt)
    (hsent : s.1.sent.length = i) (htokens : s.2 = minted secret wall i) :
    let s' := (c.signedStep secret wall start request i a s).2
    s'.2 = minted secret wall s'.1.sent.length ∧
      ((c.signedStep secret wall start request i a s).1 = none → s'.1.sent.length = i + 1) := by
  unfold signedStep
  dsimp only
  split_ifs
  · exact ⟨by rw [htokens, hsent], nofun⟩
  · have hlength : (c.sendIn start request a s.1).sent.length = i + 1 := by
      rw [sendIn, List.length_append, hsent]
      rfl
    refine ⟨?_, fun _ => hlength⟩
    rw [hlength, htokens, minted, minted, List.range_succ, List.map_append]
    rfl

variable {c start request}

/-- The run lemma: each request carries the token of its round. -/
theorem signedRpc_minted (attempts : List Attempt) :
    (c.signedRpc secret wall start request attempts).2.2 =
      minted secret wall (c.signedRpc secret wall start request attempts).2.1.sent.length := by
  have hrun : ∀ (attempts : List Attempt) (i : ℕ) {s : RpcState × List String},
      s.1.sent.length = i → s.2 = minted secret wall i →
      (forEach (c.signedStep secret wall start request) i attempts s).2.2 =
        minted secret wall
          (forEach (c.signedStep secret wall start request) i attempts s).2.1.sent.length := by
    intro attempts
    induction attempts with
    | nil => exact fun i s hsent htokens => by rw [forEach, htokens, hsent]
    | cons a rest ih =>
        intro i s hsent htokens
        obtain ⟨hminted, hnext⟩ :=
          c.signedStep_minted start request a hsent htokens
        rcases hstep : c.signedStep secret wall start request i a s with ⟨_ | answer, s'⟩
        · rw [hstep] at hminted hnext
          rw [forEach_cons_of_none hstep]
          have hlength := hnext rfl
          exact ih (i + 1) hlength (hlength ▸ hminted)
        · rw [hstep] at hminted
          rw [forEach_cons_of_some hstep]
          exact hminted
  exact hrun attempts 0 rfl rfl

/-- Leaving the tokens out gives `_rpc`. -/
theorem signedRpc_eq (attempts : List Attempt) :
    ((c.signedRpc secret wall start request attempts).1,
      (c.signedRpc secret wall start request attempts).2.1) = c.rpc start request attempts := by
  apply forEach_project
  intro i a s
  unfold signedStep rpcStep
  split_ifs <;> rfl

/-- **Every request of a call is authorized in its own right**, retries included: it carries
a token that a client with this key lets pass exactly when the key signs it the same way and
the client's clock is within a minute of the round that sent it. -/
theorem call_authorized (c : EngineClient) (secret : Bytes) (wall : ℕ → ℚ) (start : ℚ)
    (request : RpcRequest) (attempts : List Attempt) :
    ((c.signedRpc secret wall start request attempts).1,
        (c.signedRpc secret wall start request attempts).2.1) = c.rpc start request attempts ∧
      (c.signedRpc secret wall start request attempts).2.2 =
        minted secret wall (c.rpc start request attempts).2.sent.length ∧
      ∀ (k : ℕ) (key : Bytes) (now : ℤ),
        Authorized key now (makeJwt secret (seconds (wall k))) ↔
          Sha256.hmac key (asciiBytes (signingInput (seconds (wall k)))) =
              Sha256.hmac secret (asciiBytes (signingInput (seconds (wall k)))) ∧
            |now - seconds (wall k)| ≤ 60 := by
  refine ⟨signedRpc_eq attempts, ?_, ?_⟩
  · have hsent : (c.signedRpc secret wall start request attempts).2.1 =
        (c.rpc start request attempts).2 := congrArg Prod.snd (signedRpc_eq attempts)
    rw [← hsent]
    exact signedRpc_minted attempts
  · exact fun k key now => authorized_makeJwt_iff key secret now (seconds (wall k))

end EngineClient

end StateBenchmarks.MockCl
