/-
# The client follows the replay

Two machines talk: the driver, whose calls are a conversation of the protocol in
`ExecutionLayer`, and an execution client.  Whatever the client does in the
background, and wherever the conversation is cut off, the client's head is the
tip of the chain the replayed blocks build on its snapshot, and all submitted
blocks but the last are on it.  A replay that returns has moved the head by
exactly the number of blocks it reports.

The invariant is `Standing`, one clause for each stage of the driver.
-/

import StateBenchmarks.MockCl.ExecutionLayer
import StateBenchmarks.MockCl.ReplayChaining
import StateBenchmarks.MockCl.ReplayProtocol

namespace StateBenchmarks.MockCl

open Python Control Chain

namespace ReplayDriver

variable {d : ReplayDriver} {records : List PayloadRecord} {i n : ℕ} {r : PayloadRecord}
  {t : Turn} {calls : List Exchange} {stage : Stage}

theorem remembered_eq_prevHashAt (steps : List (PayloadRecord × Turn)) :
    remembered (steps.map Prod.fst) n = prevHashAt steps n := by
  cases n with
  | zero => rfl
  | succ n =>
      rw [remembered, prevHashAt, List.getElem?_map]
      cases steps[n]? <;> rfl

theorem spoken_preflight (h : d.Spoken records calls (.idle n)) (record : records[n]? = some r) :
    d.Spoken records (calls ++ d.preflightCalls i r t (remembered records n)) (.idle n) := by
  unfold preflightCalls
  split
  · rename_i hfirst
    split
    · exact .move h (.preflight record hfirst rfl)
    · rwa [List.append_nil]
  · rwa [List.append_nil]

/-- Polling, while the block has not landed or has and is still asked for. -/
theorem spoken_polls (h : d.Spoken records calls (.taken n)) (record : records[n]? = some r)
    (replies : List Reply) :
    d.Spoken records (calls ++ Progress.pollExchanges i r replies) (.taken n) := by
  induction replies using List.reverseRecOn with
  | nil => simpa [Progress.pollExchanges] using h
  | append_singleton replies reply ih =>
      have hmore := Spoken.move ih
        (.polled (x := ⟨i, .landing, .forkchoiceUpdated r.blockHash, reply.result⟩) record rfl)
      simpa [Progress.pollExchanges] using hmore

/-- A record that passed its check names the remembered hash as its parent. -/
theorem parent_of_parentOk {prevHash : Json} (h : d.ParentOk r t prevHash)
    (hne : prevHash ≠ .null) :
    r.parentHash.pyEq prevHash = true := by
  cases prevHash with
  | null => exact absurd rfl hne
  | bool | int | float | str | arr | obj => exact h

theorem spoken_taken {call : EngineCall} {status : Json} (h : d.Spoken records calls (.idle n))
    (record : records[n]? = some r) (hsent : d.Sent n r t call (remembered records n))
    (htakes : Takes t status) :
    d.Spoken records
      (calls ++ d.preflightCalls n r t (remembered records n) ++
        [⟨n, .submission, call, t.newPayload.result⟩]) (.taken n) :=
  .move (spoken_preflight h record)
    (.taken record (parent_of_parentOk hsent.parentOk) hsent.call_eq ⟨status, htakes⟩)

theorem spoken_refused {call : EngineCall} (h : d.Spoken records calls (.idle n))
    (record : records[n]? = some r) (hsent : d.Sent n r t call (remembered records n)) :
    d.Spoken records
      (calls ++ d.preflightCalls n r t (remembered records n) ++
        [⟨n, .submission, call, t.newPayload.result⟩]) (.offered n) :=
  .move (spoken_preflight h record) (.refused record hsent.call_eq)

/-- The step lemma: an iteration goes on with the conversation, and one that falls
through has landed its record. -/
theorem turn_spoken {s : Progress} (hadvance : d.advanceHead = true)
    (h : d.Spoken records s.trace (.idle n)) (hprev : s.prevHash = remembered records n)
    (record : records[n]? = some r) :
    ∃ stage, d.Spoken records (d.turn n (r, t) s).2.trace stage ∧
      ((d.turn n (r, t) s).1 = none → stage = .idle (n + 1)) := by
  have hstep := d.turn_step n r t s
  generalize d.turn n (r, t) s = result at hstep
  cases hstep with
  | stopped hcut => exact ⟨_, h, by simp⟩
  | refused e hcut hparent =>
      refine ⟨.idle n, ?_, by simp⟩
      rw [preflighted_trace, hprev]
      exact spoken_preflight h record
  | unversioned e hcut hparent hcall =>
      refine ⟨.idle n, ?_, by simp⟩
      show d.Spoken records (d.preflighted n r t s).trace _
      rw [preflighted_trace, hprev]
      exact spoken_preflight h record
  | escaped e call hsent hresult =>
      refine ⟨.offered n, ?_, by simp⟩
      simpa [submitted, hprev] using spoken_refused h record (hprev ▸ hsent)
  | unreadable e call answer hsent hresult hstatus =>
      refine ⟨.offered n, ?_, by simp⟩
      simpa [answered, submitted, hprev] using spoken_refused h record (hprev ▸ hsent)
  | rejected call answer status hsent hresult hstatus hrejected =>
      refine ⟨.offered n, ?_, by simp⟩
      simpa [answered, submitted, hprev] using spoken_refused h record (hprev ▸ hsent)
  | executed call status hsent htakes hkeep =>
      rw [hadvance] at hkeep
      cases hkeep
  | polling call status hsent htakes _ hpoll =>
      refine ⟨.taken n, ?_, by simp⟩
      have htaken := spoken_polls (i := n) (spoken_taken h record (hprev ▸ hsent) htakes) record
        t.polls
      simpa [answered, submitted, Progress.polled, hprev] using htaken
  | lost e call status replies hsent htakes _ hpoll =>
      refine ⟨.taken n, ?_, by simp⟩
      have htaken := spoken_polls (i := n) (spoken_taken h record (hprev ▸ hsent) htakes) record
        replies
      simpa [answered, submitted, Progress.polled, hprev] using htaken
  | failed call status label message replies hsent htakes _ hpoll =>
      refine ⟨.taken n, ?_, by simp⟩
      have htaken := spoken_polls (i := n) (spoken_taken h record (hprev ▸ hsent) htakes) record
        replies
      simpa [answered, submitted, Progress.polled, hprev] using htaken
  | landed call status front reply fcuMs syncWaitMs hsent htakes _ hpoll hvalid =>
      refine ⟨.idle (n + 1), ?_, fun _ => rfl⟩
      have htaken := spoken_polls (i := n) (spoken_taken h record (hprev ▸ hsent) htakes) record
        front
      have hlanded := Spoken.move htaken
        (.landed (x := ⟨n, .landing, .forkchoiceUpdated r.blockHash, reply.result⟩) record rfl
          hvalid)
      simpa [answered, submitted, Progress.polled, Progress.pollExchanges, hprev] using hlanded

/-- The run lemma: arriving at record `n`, the driver is done with those before it. -/
theorem spoken_of_arrives {steps : List (PayloadRecord × Turn)} {content : Option String}
    {s : Progress} (hadvance : d.advanceHead = true)
    (h : Arrives d.turn steps (.start content) n s) :
    d.Spoken (steps.map Prod.fst) s.trace (.idle n) := by
  induction h with
  | start => exact .silence
  | @next k step s s' here item falls ih =>
      obtain ⟨r, t⟩ := step
      have record : (steps.map Prod.fst)[k]? = some r := by simp [item]
      have hprev : s.prevHash = remembered (steps.map Prod.fst) k := by
        rw [remembered_eq_prevHashAt]
        exact prevHash_of_arrives here
      obtain ⟨stage, hspoken, hstage⟩ := turn_spoken (t := t) hadvance ih hprev record
      rw [falls] at hspoken hstage
      rw [← hstage rfl]
      exact hspoken

/-- A run's calls are a conversation, and one that returns is between two records, having
reported those it is done with. -/
theorem run_spoken (hadvance : d.advanceHead = true) (content : Option String)
    (steps : List (PayloadRecord × Turn)) :
    ∃ stage, d.Spoken (steps.map Prod.fst) (d.run content steps).2.trace stage ∧
      ∀ summary, (d.run content steps).1 = .returned summary → stage = .idle summary.blocks := by
  rcases d.run_cases content steps with
    ⟨s, hs, hrun⟩ | ⟨k, r, t, s, exit, s', hs, item, hturn, hrun⟩
  · rw [hrun, ending_trace]
    refine ⟨_, spoken_of_arrives hadvance hs, ?_⟩
    rintro summary ⟨⟩
    rw [ReplayDriver.summary, writeCsv_rows, (between_of_arrives hs).rows]
  · have hspoken := spoken_of_arrives hadvance hs
    have hprev : s.prevHash = remembered (steps.map Prod.fst) k := by
      rw [remembered_eq_prevHashAt]
      exact prevHash_of_arrives hs
    obtain ⟨stage, hstage, -⟩ :=
      turn_spoken (t := t) hadvance hspoken hprev (r := r) (by simp [item])
    rw [hturn] at hstage
    rw [hrun, ending_trace]
    cases exit with
    | raised e | waiting => exact ⟨stage, hstage, fun summary h => by simp [ending] at h⟩
    | stop =>
        have hstopped : s' = s := by
          have hstep := d.turn_step k r t s
          rw [hturn] at hstep
          cases hstep
          rfl
        rw [hstopped]
        refine ⟨_, hspoken, ?_⟩
        rintro summary ⟨⟩
        rw [ReplayDriver.summary, writeCsv_rows, (between_of_arrives hs).rows]

theorem Spoken.stage_of_nil (h : d.Spoken records [] stage) : stage = .idle 0 := by
  generalize hcalls : [] = calls at h
  cases h with
  | silence => rfl
  | move before next => simp at hcalls

theorem Spoken.of_snoc {x : Exchange} (h : d.Spoken records (calls ++ [x]) stage) :
    ∃ before, d.Spoken records calls before ∧ d.Moves records before x stage := by
  generalize hcalls : calls ++ [x] = all at h
  cases h with
  | silence => simp at hcalls
  | move before next =>
      obtain ⟨rfl, hx⟩ := List.append_inj' hcalls rfl
      cases hx
      exact ⟨_, before, next⟩

/-- The stage of a conversation counts the payloads in it. -/
theorem Spoken.length_newPayloadCalls (h : d.Spoken records calls stage) :
    (newPayloadCalls calls).length = stage.submitted := by
  induction h with
  | silence => rfl
  | move before next ih =>
      rw [newPayloadCalls_append, List.length_append, ih]
      cases next with
      | preflight record first call | polled record call | landed record call =>
          simp [newPayloadCalls, call, EngineCall.isNewPayload, Stage.submitted]
      | refused record call | taken record parent call =>
          simp [newPayloadCalls, isNewPayload_of_submission call, Stage.submitted]

end ReplayDriver

/-! ## Where the client stands -/

/-- The hashes of the first `n` records. -/
def hashes (records : List PayloadRecord) (n : ℕ) : List Json :=
  (records.take n).map PayloadRecord.blockHash

/-- The hash of a record is the one its payload carries, as the loader makes it. -/
def HashesMatch (records : List PayloadRecord) : Prop :=
  ∀ r ∈ records, r.blockHash = Dict.get r.payload "blockHash"

namespace ExecutionLayer

variable {σ : Type} (el : ExecutionLayer σ) (s₀ : σ) (records : List PayloadRecord)

/-- The first `n` blocks are executed, and the head is the tip of the chain they build
on the head the client started with. -/
structure At (n : ℕ) (s : σ) : Prop where
  linked : el.tree.Linked (el.head s₀) (hashes records n)
  head : el.head s = BlockTree.tip (el.head s₀) (hashes records n)
  executed : ∀ h ∈ hashes records n, el.executed s h

/-- The client holds no other new blocks than the first `n`. -/
def Received (n : ℕ) (s : σ) : Prop :=
  ∀ h, el.known s h → el.known s₀ h ∨ h ∈ hashes records n

/-- What the client has come to when the driver is at each stage. -/
def Standing : Stage → σ → Prop
  | .idle n, s => el.At s₀ records n s ∧ el.Received s₀ records n s
  | .offered n, s => el.At s₀ records n s ∧ el.Received s₀ records (n + 1) s
  | .taken n, s =>
      el.tree.Linked (el.head s₀) (hashes records (n + 1)) ∧
        (el.At s₀ records n s ∨ el.At s₀ records (n + 1) s) ∧ el.Received s₀ records (n + 1) s

/-- The payload file starts at the block after the client's head. -/
def StartsAtHead : Prop := ∀ r, records[0]? = some r → r.parentHash = el.head s₀

variable {el s₀ records} {d : ReplayDriver} {n : ℕ} {s t : σ} {r : PayloadRecord}
  {stage stage' : Stage} {calls : List Exchange}

theorem hashes_succ (record : records[n]? = some r) :
    hashes records (n + 1) = hashes records n ++ [r.blockHash] := by
  rw [hashes, List.take_add_one, record, List.map_append]
  rfl

theorem hashes_subset : hashes records n ⊆ hashes records (n + 1) :=
  List.map_subset _ ((List.take_subset_take_left records (Nat.le_succ n)))

theorem Received.later (h : el.Received s₀ records n s)
    (hknown : ∀ h, el.known t h → el.known s h) :
    el.Received s₀ records n t :=
  fun h' ht => h h' (hknown h' ht)

theorem Received.succ (h : el.Received s₀ records n s) : el.Received s₀ records (n + 1) s :=
  fun h' hs => (h h' hs).imp_right fun hmem => hashes_subset hmem

theorem At.later (h : el.At s₀ records n s) (hhead : el.head t = el.head s)
    (hexecuted : ∀ h, el.executed s h → el.executed t h) : el.At s₀ records n t where
  linked := h.linked
  head := hhead.trans h.head
  executed h' hmem := hexecuted h' (h.executed h' hmem)

/-- The next block became the head. -/
theorem At.landed (h : el.At s₀ records n s) (record : records[n]? = some r)
    (hlinked : el.tree.Linked (el.head s₀) (hashes records (n + 1)))
    (hhead : el.head t = r.blockHash) (hexecuted : ∀ h, el.executed s h → el.executed t h)
    (hblock : el.executed t r.blockHash) : el.At s₀ records (n + 1) t where
  linked := hlinked
  head := by rw [hhead, hashes_succ record, BlockTree.tip_append]
  executed h' hmem := by
    rw [hashes_succ record] at hmem
    rcases List.mem_append.mp hmem with hmem | hmem
    · exact hexecuted h' (h.executed h' hmem)
    · obtain rfl := List.mem_singleton.mp hmem
      exact hblock

/-- The hash of a record that landed is text, so it is remembered. -/
theorem At.remembered_eq (h : el.At s₀ records n s) (hn : n ≠ 0) (record : records[n]? = some r) :
    ReplayDriver.remembered records n = BlockTree.tip (el.head s₀) (hashes records n) ∧
      ∃ text, ReplayDriver.remembered records n = .str text := by
  cases n with
  | zero => exact absurd rfl hn
  | succ m =>
      obtain ⟨hlt, -⟩ := List.getElem?_eq_some_iff.mp record
      have before : records[m]? = some records[m] := List.getElem?_eq_getElem (by omega)
      have hremembered : ReplayDriver.remembered records (m + 1) = records[m].blockHash := by
        rw [ReplayDriver.remembered, before]
      obtain ⟨p, hp⟩ := h.linked.exists_parent (h := records[m].blockHash) (by
        rw [hashes_succ before]
        exact List.mem_append_right _ List.mem_cons_self)
      rw [hremembered, hashes_succ before, BlockTree.tip_append]
      exact ⟨rfl, el.parent_str hp⟩

/-- A record that may be submitted names the tip for its parent. -/
theorem At.parentHash_eq (h : el.At s₀ records n s) (hstarts : el.StartsAtHead s₀ records)
    (record : records[n]? = some r)
    (hparent : ReplayDriver.remembered records n ≠ .null →
      r.parentHash.pyEq (ReplayDriver.remembered records n) = true) :
    r.parentHash = BlockTree.tip (el.head s₀) (hashes records n) := by
  rcases Nat.eq_zero_or_pos n with rfl | hpos
  · exact hstarts r record
  · obtain ⟨htip, text, htext⟩ := h.remembered_eq (Nat.ne_of_gt hpos) record
    have heq := hparent (by rw [htext]; simp)
    rw [htext] at heq
    rw [← htip, htext]
    exact Json.pyEq_str_iff.mp heq

theorem offered_of_submission {call : EngineCall} (h : d.submission r = .ok call) :
    call.offered = some (Dict.get r.payload "blockHash", r.parentHash) := by
  obtain ⟨version, -, hcall⟩ := except_bind_eq_ok h
  obtain rfl := Except.ok.inj hcall
  rfl

/-- A payload leaves the head alone and adds at most its own block. -/
theorem received_offered {x : Exchange} (h : el.At s₀ records n s)
    (hreceived : el.Received s₀ records n s) (hmatch : HashesMatch records)
    (record : records[n]? = some r) (hcall : d.submission r = .ok x.call)
    (hreply : el.replies s x.call x.result t) :
    el.At s₀ records n t ∧ el.Received s₀ records (n + 1) t := by
  have hoffered := offered_of_submission hcall
  refine ⟨h.later (el.head_offered hreply hoffered) fun _ => el.executed_replies hreply, ?_⟩
  intro h' hknown
  rcases el.known_replies hreply hknown with hbefore | ⟨parent, hnew⟩
  · exact hreceived.succ h' hbefore
  · rw [hoffered] at hnew
    obtain ⟨rfl, -⟩ := Prod.mk.inj (Option.some_inj.mp hnew)
    right
    rw [hashes_succ record, ← hmatch r (List.mem_of_getElem? record)]
    exact List.mem_append_right _ List.mem_cons_self

/-- An update brings no blocks. -/
theorem received_forkchoice {head : Json} {result : Except Exn Json}
    (hreceived : el.Received s₀ records n s)
    (hreply : el.replies s (.forkchoiceUpdated head) result t) : el.Received s₀ records n t := by
  apply hreceived.later
  intro h hknown
  rcases el.known_replies hreply hknown with hbefore | ⟨parent, hnew⟩
  · exact hbefore
  · cases hnew

/-- Background work changes nothing that matters here. -/
theorem Standing.works (h : el.Standing s₀ records stage s) (work : el.works s t) :
    el.Standing s₀ records stage t := by
  have hat : ∀ {n}, el.At s₀ records n s → el.At s₀ records n t := fun h =>
    h.later (el.head_works work) fun _ => el.executed_works work
  have hreceived : ∀ {n}, el.Received s₀ records n s → el.Received s₀ records n t := fun h =>
    h.later fun _ => el.known_works work
  cases stage with
  | idle n => exact ⟨hat h.1, hreceived h.2⟩
  | offered n => exact ⟨hat h.1, hreceived h.2⟩
  | taken n => exact ⟨h.1, h.2.1.imp hat hat, hreceived h.2.2⟩

/-- An update to the block being polled for leaves the head, or moves it there. -/
theorem at_polled {result : Except Exn Json} (record : records[n]? = some r)
    (hlinked : el.tree.Linked (el.head s₀) (hashes records (n + 1)))
    (hat : el.At s₀ records n s ∨ el.At s₀ records (n + 1) s)
    (hreply : el.replies s (.forkchoiceUpdated r.blockHash) result t) :
    el.At s₀ records n t ∨ el.At s₀ records (n + 1) t := by
  have hexecuted : ∀ h, el.executed s h → el.executed t h := fun _ => el.executed_replies hreply
  rcases hat with hat | hat
  · rcases el.head_forkchoice hreply with hhead | ⟨hhead, hblock⟩
    · exact Or.inl (hat.later hhead hexecuted)
    · exact Or.inr (hat.landed record hlinked hhead hexecuted hblock)
  · have htip : el.head s = r.blockHash := by
      rw [hat.head, hashes_succ record, BlockTree.tip_append]
    rcases el.head_forkchoice hreply with hhead | ⟨hhead, -⟩
    · exact Or.inr (hat.later hhead hexecuted)
    · exact Or.inr (hat.later (hhead.trans htip.symm) hexecuted)

/-- A `VALID` update to that block cannot have been skipped: it is not below the tip. -/
theorem at_landed {result : Except Exn Json} (record : records[n]? = some r)
    (hlinked : el.tree.Linked (el.head s₀) (hashes records (n + 1)))
    (hat : el.At s₀ records n s ∨ el.At s₀ records (n + 1) s)
    (hreply : el.replies s (.forkchoiceUpdated r.blockHash) result t) (hvalid : ValidBy result) :
    el.At s₀ records (n + 1) t := by
  obtain ⟨hblock, hwhere⟩ := el.head_valid hreply hvalid
  rcases at_polled record hlinked hat hreply with hbefore | hafter
  · have hexecuted : ∀ h, el.executed t h → el.executed t h := fun _ h => h
    rcases hwhere with hhead | ⟨hhead, hskipped⟩
    · exact hbefore.landed record hlinked hhead hexecuted hblock
    · have hparent : el.tree.parent r.blockHash = some (el.head s) := by
        rw [← hhead, hbefore.head]
        have hgrown := hlinked
        rw [hashes_succ record] at hgrown
        exact hgrown.parent_of_snoc
      exact absurd hskipped (BlockTree.not_onChain_of_parent hparent)
  · exact hafter

/-- The step lemma: a call of the protocol, answered by the client. -/
theorem Standing.replies {x : Exchange} (h : el.Standing s₀ records stage s)
    (hstarts : el.StartsAtHead s₀ records) (hmatch : HashesMatch records)
    (hmoves : d.Moves records stage x stage') (hreply : el.replies s x.call x.result t) :
    el.Standing s₀ records stage' t := by
  cases hmoves with
  | @preflight n r x record first call =>
      obtain ⟨hat, hreceived⟩ := h
      rw [call] at hreply
      refine ⟨hat.later ?_ fun _ => el.executed_replies hreply,
        received_forkchoice hreceived hreply⟩
      have hzero : n = 0 := by
        by_contra hne
        obtain ⟨-, text, htext⟩ := hat.remembered_eq hne record
        rw [first] at htext
        cases htext
      subst hzero
      have hbase : r.parentHash = el.head s := by
        rw [hstarts r record, hat.head]
        rfl
      rcases el.head_forkchoice hreply with hhead | ⟨hhead, -⟩
      · exact hhead
      · exact hhead.trans hbase
  | @refused n r x record call => exact received_offered h.1 h.2 hmatch record call hreply
  | @taken n r x record parent call took =>
      obtain ⟨hat, hreceived⟩ := received_offered h.1 h.2 hmatch record call hreply
      refine ⟨?_, Or.inl hat, hreceived⟩
      have hparent := el.parent_taken hreply (offered_of_submission call) took
      rw [← hmatch r (List.mem_of_getElem? record), h.1.parentHash_eq hstarts record parent]
        at hparent
      rw [hashes_succ record]
      exact hat.linked.grow hparent
  | @polled n r x record call =>
      obtain ⟨hlinked, hat, hreceived⟩ := h
      rw [call] at hreply
      exact ⟨hlinked, at_polled record hlinked hat hreply, received_forkchoice hreceived hreply⟩
  | @landed n r x record call valid =>
      obtain ⟨hlinked, hat, hreceived⟩ := h
      rw [call] at hreply
      exact ⟨at_landed record hlinked hat hreply valid, received_forkchoice hreceived hreply⟩

/-- The run lemma: a client that serves a conversation stands where its stage says. -/
theorem standing_of_serves (hstarts : el.StartsAtHead s₀ records) (hmatch : HashesMatch records)
    (hserves : el.Serves s₀ calls s) (hspoken : d.Spoken records calls stage) :
    el.Standing s₀ records stage s := by
  induction hserves generalizing stage with
  | idle =>
      rw [hspoken.stage_of_nil]
      exact ⟨⟨.base, rfl, nofun⟩, fun h hknown => Or.inl hknown⟩
  | works before work ih => exact (ih hspoken).works work
  | replies before reply ih =>
      obtain ⟨earlier, hbefore, hmoves⟩ := hspoken.of_snoc
      exact (ih hbefore).replies hstarts hmatch hmoves reply

/-- The replay as the client lives it.  Wherever the conversation is cut off, the head is
the tip of the blocks taken so far, the last one excepted; after a replay that returns it
is the tip of all the blocks reported. -/
structure Followed (el : ExecutionLayer σ) (s₀ : σ) (records : List PayloadRecord)
    (result : Outcome × Progress) : Prop where
  oneBehind : ∀ front s, front <+: result.2.trace → el.Serves s₀ front s →
    ∃ m, m ≤ (newPayloadCalls front).length ∧ (newPayloadCalls front).length ≤ m + 1 ∧
      el.At s₀ records m s ∧ el.Received s₀ records (newPayloadCalls front).length s
  returned : ∀ summary s, result.1 = .returned summary → el.Serves s₀ result.2.trace s →
    el.At s₀ records summary.blocks s ∧ el.Received s₀ records summary.blocks s ∧
      el.tree.height (el.head s) = el.tree.height (el.head s₀) + summary.blocks

theorem Standing.oneBehind (h : el.Standing s₀ records stage s) :
    ∃ m, m ≤ stage.submitted ∧ stage.submitted ≤ m + 1 ∧ el.At s₀ records m s ∧
      el.Received s₀ records stage.submitted s := by
  cases stage with
  | idle n => exact ⟨n, Nat.le_refl n, Nat.le_succ n, h.1, h.2⟩
  | offered n => exact ⟨n, Nat.le_succ n, Nat.le_refl _, h.1, h.2⟩
  | taken n =>
      rcases h.2.1 with hat | hat
      · exact ⟨n, Nat.le_succ n, Nat.le_refl _, hat, h.2.2⟩
      · exact ⟨n + 1, Nat.le_refl _, Nat.le_succ _, hat, h.2.2⟩

/-- **The client's chain grows by the replayed blocks**, in order and by nothing else,
whatever the client does of its own accord and whatever becomes of the answers. -/
theorem run_followed (el : ExecutionLayer σ) (d : ReplayDriver) (content : Option String)
    (steps : List (PayloadRecord × Turn)) (path : String) (lines : List Line)
    (hfile : steps.map Prod.fst <+: (loadPayloads path lines).2) (hadvance : d.advanceHead = true)
    (s₀ : σ) (hstarts : el.StartsAtHead s₀ (steps.map Prod.fst)) :
    el.Followed s₀ (steps.map Prod.fst) (d.run content steps) := by
  have hmatch : HashesMatch (steps.map Prod.fst) := fun r hr =>
    blockHash_of_mem_loadPayloads r (hfile.subset hr)
  obtain ⟨stage, hspoken, hreturned⟩ := ReplayDriver.run_spoken hadvance content steps
  constructor
  · rintro front s ⟨back, hback⟩ hserves
    rw [← hback] at hspoken
    obtain ⟨earlier, hfront⟩ := hspoken.exists_of_append
    rw [hfront.length_newPayloadCalls]
    exact (standing_of_serves hstarts hmatch hserves hfront).oneBehind
  · intro summary s hsummary hserves
    obtain rfl := hreturned summary hsummary
    obtain ⟨hat, hreceived⟩ := standing_of_serves hstarts hmatch hserves hspoken
    refine ⟨hat, hreceived, ?_⟩
    have hcount : summary.blocks ≤ (steps.map Prod.fst).length := by
      have hlength := hspoken.length_newPayloadCalls
      obtain ⟨n, hsafe⟩ := d.exists_safe_run content steps
      rw [hsafe.length_newPayloadCalls] at hlength
      exact (show n = summary.blocks from hlength) ▸ hsafe.le_length
    rw [hat.head, hat.linked.height_tip, hashes, List.length_map, List.length_take,
      Nat.min_eq_left hcount]

/-! ## A client that executes at once -/

/-- Its head, and the hashes of the blocks it has. -/
structure Prompt where
  head : Json
  blocks : List String

def hashText : Json → Option String
  | .str text => some text
  | _ => none

theorem hashText_eq_some_iff {h : Json} {text : String} :
    hashText h = some text ↔ h = .str text := by
  cases h <;> simp [hashText]

/-- Three blocks in a row. -/
def parentText : String → Option String
  | "0x02" => some "0x01"
  | "0x03" => some "0x02"
  | _ => none

def heightText : String → ℕ
  | "0x02" => 1
  | "0x03" => 2
  | _ => 0

def threeBlocks : BlockTree Json where
  parent h := ((hashText h).bind parentText).map .str
  height h := ((hashText h).map heightText).getD 0
  height_parent {h p} hparent := by
    obtain ⟨text, htext, rfl⟩ := Option.map_eq_some_iff.mp hparent
    obtain ⟨child, hchild, hparent⟩ := Option.bind_eq_some_iff.mp htext
    rw [hchild]
    unfold parentText at hparent
    split at hparent
    · cases hparent
      rfl
    · cases hparent
      rfl
    · cases hparent

theorem parent_threeBlocks {h p : Json} {text : String}
    (hparent : (hashText h).bind parentText = hashText p) (htext : hashText p = some text) :
    threeBlocks.parent h = some p := by
  show ((hashText h).bind parentText).map Json.str = some p
  rw [hparent, htext, hashText_eq_some_iff.mp htext]
  rfl

namespace Prompt

def Has (s : Prompt) (h : Json) : Prop := ∃ text ∈ s.blocks, h = .str text

/-- It takes a block if it has the parent, and executes it before it answers. -/
def Connects (s : Prompt) (h p : Json) : Prop :=
  (hashText h).bind parentText = hashText p ∧ hashText p ∈ s.blocks.map some

instance (s : Prompt) (h p : Json) : Decidable (s.Connects h p) :=
  inferInstanceAs (Decidable (_ ∧ _))

def answer (s : Prompt) : EngineCall → Json × Prompt
  | .newPayload payload .. =>
      let h := Dict.get payload "blockHash"
      if s.Connects h (Dict.get payload "parentHash") then
        (.obj [("status", .str "VALID")], { s with blocks := (hashText h).toList ++ s.blocks })
      else (.obj [("status", .str "INVALID")], s)
  | .forkchoiceUpdated h =>
      if hashText h ∈ s.blocks.map some then
        (.obj [("payloadStatus", .obj [("status", .str "VALID")])], { s with head := h })
      else (.obj [("payloadStatus", .obj [("status", .str "SYNCING")])], s)

variable {s : Prompt} {h : Json} {call : EngineCall}

theorem has_iff : s.Has h ↔ hashText h ∈ s.blocks.map some := by
  constructor
  · rintro ⟨text, hmem, rfl⟩
    exact List.mem_map_of_mem hmem
  · intro hmem
    obtain ⟨text, hmem, htext⟩ := List.mem_map.mp hmem
    exact ⟨text, hmem, hashText_eq_some_iff.mp htext.symm⟩

/-- What it has after a call: what it had, and the block the call brought if any. -/
theorem has_answer (hhas : (s.answer call).2.Has h) :
    s.Has h ∨ ∃ parent, call.offered = some (h, parent) := by
  cases call with
  | newPayload payload =>
      simp only [answer] at hhas
      split at hhas
      · obtain ⟨text, hmem, rfl⟩ := hhas
        rcases List.mem_append.mp hmem with hmem | hmem
        · have hbrought : Dict.get payload "blockHash" = .str text :=
            hashText_eq_some_iff.mp (Option.mem_toList.mp hmem)
          exact Or.inr ⟨_, by rw [EngineCall.offered, hbrought]⟩
        · exact Or.inl ⟨text, hmem, rfl⟩
      · exact Or.inl hhas
  | forkchoiceUpdated head =>
      simp only [answer] at hhas
      split at hhas <;> exact Or.inl hhas

theorem Has.answer (hhas : s.Has h) : (s.answer call).2.Has h := by
  obtain ⟨text, hmem, rfl⟩ := hhas
  cases call with
  | newPayload payload =>
      simp only [Prompt.answer]
      split
      · exact ⟨text, List.mem_append_right _ hmem, rfl⟩
      · exact ⟨text, hmem, rfl⟩
  | forkchoiceUpdated head =>
      simp only [Prompt.answer]
      split <;> exact ⟨text, hmem, rfl⟩

theorem head_answer {block : Json × Json} (hoffered : call.offered = some block) :
    (s.answer call).2.head = s.head := by
  cases call with
  | newPayload payload =>
      simp only [answer]
      split <;> rfl
  | forkchoiceUpdated head => cases hoffered

theorem parent_answer {p : Json} (hoffered : call.offered = some (h, p))
    (htaken : TakenBy (.ok (s.answer call).1)) : threeBlocks.parent h = some p := by
  cases call with
  | newPayload payload =>
      obtain ⟨rfl, rfl⟩ := Prod.mk.inj (Option.some_inj.mp hoffered)
      by_cases hconnects : s.Connects (Dict.get payload "blockHash") (Dict.get payload "parentHash")
      · obtain ⟨text, -, htext⟩ := List.mem_map.mp hconnects.2
        exact parent_threeBlocks hconnects.1 htext.symm
      · obtain ⟨status, hstatus, haccepted⟩ := htaken
        rw [answer, if_neg hconnects] at hstatus
        obtain rfl : Json.str "INVALID" = status := Except.ok.inj hstatus
        exact absurd haccepted (by decide)
  | forkchoiceUpdated head => cases hoffered

theorem head_forkchoice_answer :
    (s.answer (.forkchoiceUpdated h)).2.head = s.head ∨
      (s.answer (.forkchoiceUpdated h)).2.head = h ∧ (s.answer (.forkchoiceUpdated h)).2.Has h := by
  by_cases hhas : hashText h ∈ s.blocks.map some
  · exact Or.inr ⟨by rw [answer, if_pos hhas], (has_iff.mpr hhas).answer⟩
  · exact Or.inl (by rw [answer, if_neg hhas])

theorem head_valid_answer (hvalid : ValidBy (.ok (s.answer (.forkchoiceUpdated h)).1)) :
    (s.answer (.forkchoiceUpdated h)).2.Has h ∧
      (s.answer (.forkchoiceUpdated h)).2.head = h := by
  by_cases hhas : hashText h ∈ s.blocks.map some
  · exact ⟨(has_iff.mpr hhas).answer, by rw [answer, if_pos hhas]⟩
  · rw [answer, if_neg hhas] at hvalid
    exact absurd (Json.str.inj (Except.ok.inj hvalid)) (by decide)

end Prompt

def promptClient : ExecutionLayer Prompt where
  tree := threeBlocks
  head := Prompt.head
  known := Prompt.Has
  executed := Prompt.Has
  works s t := t = s
  replies s call result t := result = .ok (s.answer call).1 ∧ t = (s.answer call).2
  parent_str {h p} hparent := by
    obtain ⟨text, htext, -⟩ := Option.map_eq_some_iff.mp hparent
    obtain ⟨child, hchild, -⟩ := Option.bind_eq_some_iff.mp htext
    exact ⟨child, hashText_eq_some_iff.mp hchild⟩
  head_works h := by rw [h]
  known_works h := by rw [h]; exact id
  executed_works h := by rw [h]; exact id
  known_replies h hknown := Prompt.has_answer (h.2 ▸ hknown)
  executed_replies h hhas := h.2 ▸ hhas.answer
  head_offered h hoffered := h.2 ▸ Prompt.head_answer hoffered
  parent_taken h hoffered htaken := Prompt.parent_answer hoffered (h.1 ▸ htaken)
  head_forkchoice h := h.2 ▸ Prompt.head_forkchoice_answer
  head_valid h hvalid := by
    obtain ⟨hhas, hhead⟩ := Prompt.head_valid_answer (h.1 ▸ hvalid)
    rw [h.2]
    exact ⟨hhas, Or.inl hhead⟩

/-- Two payloads on top of the first block. -/
def twoPayloads : List Line :=
  [.json (.obj [("payload", .obj [("parentHash", .str "0x01"), ("blockHash", .str "0x02")])]),
    .json (.obj [("payload", .obj [("parentHash", .str "0x02"), ("blockHash", .str "0x03")])])]

/-- Replaying them to a client that answers `VALID` throughout. -/
def twoSteps : List (PayloadRecord × Turn) :=
  (loadPayloads "payloads.jsonl" twoPayloads).2.map fun r => (r, ReplayDriver.agreeable)

theorem records_twoSteps :
    twoSteps.map Prod.fst <+: (loadPayloads "payloads.jsonl" twoPayloads).2 := by
  rw [twoSteps, List.map_map]
  exact (List.map_id _).symm ▸ List.prefix_rfl

/-- A client that executes at once serves this replay to the end. -/
theorem serves_twoSteps :
    ∃ s, promptClient.Serves ⟨.str "0x01", ["0x01"]⟩
      (ReplayDriver.plainReplay.run none twoSteps).2.trace s ∧ s.head = .str "0x03" := by
  have htrace : (ReplayDriver.plainReplay.run none twoSteps).2.trace =
      [] ++ [_] ++ [_] ++ [_] ++ [_] ++ [_] := rfl
  rw [htrace]
  refine ⟨_, .replies (.replies (.replies (.replies (.replies .idle ⟨?_, rfl⟩) ⟨?_, rfl⟩)
    ⟨?_, rfl⟩) ⟨?_, rfl⟩) ⟨?_, rfl⟩, ?_⟩
  all_goals rfl

/-- It follows the replay. -/
theorem run_followed_twoSteps :
    promptClient.Followed ⟨.str "0x01", ["0x01"]⟩ (twoSteps.map Prod.fst)
        (ReplayDriver.plainReplay.run none twoSteps) :=
  run_followed promptClient ReplayDriver.plainReplay none twoSteps "payloads.jsonl" twoPayloads
    records_twoSteps rfl _ fun r hr => by
      obtain rfl := Option.some_inj.mp hr
      rfl

end ExecutionLayer

end StateBenchmarks.MockCl
