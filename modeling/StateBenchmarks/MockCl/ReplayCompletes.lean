/-
# A good file and a good client

The replay raises on whatever looks wrong: a base the client does not know, a
gap, a payload that is not taken, a block that does not land in time.  None of
these happens to a file of consecutive blocks that starts after the client's
head, replayed to a client that takes what it can connect and executes it within
the wait: the replay returns, or is still polling.
-/

import StateBenchmarks.MockCl.ReplayFollowed

namespace StateBenchmarks.MockCl

open Python Control Chain

namespace ExecutionLayer

variable {σ : Type}

/-- A client that does its work: it takes a block whose parent it has executed and does
not lose it, and an update to a block it has is answered, with `VALID` once the block is
executed. -/
structure Obliging (el : ExecutionLayer σ) : Prop where
  takes : ∀ {s t call result h p}, el.replies s call result t → call.offered = some (h, p) →
    el.tree.parent h = some p → el.executed s p → TakenBy result ∧ el.known t h
  keeps_works : ∀ {s t h}, el.works s t → el.known s h → el.known t h
  keeps_replies : ∀ {s t call result h}, el.replies s call result t → el.known s h → el.known t h
  valid : ∀ {s t h result}, el.replies s (.forkchoiceUpdated h) result t → el.executed s h →
    ValidBy result
  waits : ∀ {s t h result}, el.replies s (.forkchoiceUpdated h) result t → el.known s h →
    ∃ status, (result >>= forkchoiceStatus) = .ok status ∧ status ≠ .str "INVALID"

/-- Consecutive blocks on top of the client's head, each naming its parent, that the
driver knows how to submit. -/
structure Consecutive (el : ExecutionLayer σ) (d : ReplayDriver) (s₀ : σ)
    (records : List PayloadRecord) : Prop where
  linked : el.tree.Linked (el.head s₀) (records.map PayloadRecord.blockHash)
  genuine : ∀ r ∈ records, el.tree.parent r.blockHash = some r.parentHash
  submits : ∀ r ∈ records, ∃ call, d.submission r = .ok call

/-- Every poll past its deadline finds the block landed. -/
def InTime (d : ReplayDriver) (steps : List (PayloadRecord × Turn)) : Prop :=
  ∀ step ∈ steps, ∀ reply ∈ step.2.polls, d.deadline step.2 < reply.later → ValidBy reply.result

variable {el : ExecutionLayer σ} {d : ReplayDriver} {s₀ s t : σ} {records : List PayloadRecord}
  {calls more : List Exchange} {x : Exchange} {n : ℕ} {r : PayloadRecord} {h : Json}

theorem Serves.exists_of_append (hserves : el.Serves s₀ (calls ++ more) t) :
    ∃ s, el.Serves s₀ calls s ∧ el.Serves s more t := by
  generalize hall : calls ++ more = all at hserves
  induction hserves generalizing more with
  | idle =>
      obtain ⟨rfl, rfl⟩ := List.append_eq_nil_iff.mp hall
      exact ⟨s₀, .idle, .idle⟩
  | works before work ih =>
      obtain ⟨s, hcalls, hmore⟩ := ih hall
      exact ⟨s, hcalls, hmore.works work⟩
  | @replies served s u x before reply ih =>
      rcases List.eq_nil_or_concat more with rfl | ⟨front, last, rfl⟩
      · rw [List.append_nil] at hall
        rw [hall]
        exact ⟨u, .replies before reply, .idle⟩
      · rw [List.concat_eq_append] at hall ⊢
        rw [← List.append_assoc] at hall
        obtain ⟨hserved, hlast⟩ := List.append_inj' hall rfl
        cases hlast
        obtain ⟨m, hcalls, hfront⟩ := ih hserved
        exact ⟨m, hcalls, .replies hfront reply⟩

/-- The last call was answered in a state that served those before it, and nothing was
asked since. -/
theorem Serves.exists_of_snoc (hserves : el.Serves s₀ (calls ++ [x]) t) :
    ∃ s u, el.Serves s₀ calls s ∧ el.replies s x.call x.result u ∧ el.Serves u [] t := by
  generalize hall : calls ++ [x] = all at hserves
  induction hserves with
  | idle => simp at hall
  | works before work ih =>
      obtain ⟨s, u, hcalls, hreply, hsince⟩ := ih hall
      exact ⟨s, u, hcalls, hreply, hsince.works work⟩
  | @replies served s u y before reply ih =>
      obtain ⟨rfl, hlast⟩ := List.append_inj' hall rfl
      cases hlast
      exact ⟨s, u, before, reply, .idle⟩

theorem Serves.executed (hserves : el.Serves s₀ calls s) (hexecuted : el.executed s₀ h) :
    el.executed s h := by
  induction hserves with
  | idle => exact hexecuted
  | works before work ih => exact el.executed_works work ih
  | replies before reply ih => exact el.executed_replies reply ih

theorem Serves.known (hobliging : el.Obliging) (hserves : el.Serves s₀ calls s)
    (hknown : el.known s₀ h) : el.known s h := by
  induction hserves with
  | idle => exact hknown
  | works before work ih => exact hobliging.keeps_works work ih
  | replies before reply ih => exact hobliging.keeps_replies reply ih

theorem Consecutive.linked_hashes (h : el.Consecutive d s₀ records) (n : ℕ) :
    el.tree.Linked (el.head s₀) (hashes records n) := by
  have hlinked := h.linked
  rw [← List.take_append_drop n records, List.map_append] at hlinked
  exact hlinked.of_append

theorem Consecutive.parentHash_eq (h : el.Consecutive d s₀ records)
    (record : records[n]? = some r) :
    r.parentHash = BlockTree.tip (el.head s₀) (hashes records n) := by
  have hlinked := h.linked_hashes (n + 1)
  rw [hashes_succ record] at hlinked
  have hparent := hlinked.parent_of_snoc
  rw [h.genuine r (List.mem_of_getElem? record)] at hparent
  exact Option.some_inj.mp hparent

theorem Consecutive.startsAtHead (h : el.Consecutive d s₀ records) : el.StartsAtHead s₀ records :=
  fun _ record => h.parentHash_eq record

/-- The tip is executed when a record is looked at. -/
theorem At.executed_tip (h : el.At s₀ records n s) (hserves : el.Serves s₀ calls s)
    (hbase : el.executed s₀ (el.head s₀)) :
    el.executed s (BlockTree.tip (el.head s₀) (hashes records n)) := by
  rcases List.eq_nil_or_concat (hashes records n) with hnil | ⟨front, last, hlast⟩
  · rw [hnil]
    exact hserves.executed hbase
  · rw [List.concat_eq_append] at hlast
    rw [hlast, BlockTree.tip_append]
    exact h.executed last (by rw [hlast]; exact List.mem_append_right _ List.mem_cons_self)

/-- The standing of a client that serves a run so far, a base preflight included. -/
theorem at_preflighted {content : Option String} {steps : List (PayloadRecord × Turn)}
    {p : Progress} {turn : Turn} (hadvance : d.advanceHead = true)
    (hmatch : HashesMatch (steps.map Prod.fst))
    (hconsecutive : el.Consecutive d s₀ (steps.map Prod.fst))
    (hs : Arrives d.turn steps (.start content) n p) (record : steps[n]? = some (r, turn))
    (hserves : el.Serves s₀ (d.preflighted n r turn p).trace s) :
    el.At s₀ (steps.map Prod.fst) n s := by
  have hprev : p.prevHash = ReplayDriver.remembered (steps.map Prod.fst) n := by
    rw [ReplayDriver.remembered_eq_prevHashAt]
    exact ReplayDriver.prevHash_of_arrives hs
  rw [ReplayDriver.preflighted_trace, hprev] at hserves
  have hspoken := ReplayDriver.spoken_preflight (i := n) (t := turn)
    (ReplayDriver.spoken_of_arrives hadvance hs) (r := r) (by simp [record])
  exact (standing_of_serves hconsecutive.startsAtHead hmatch hserves hspoken).1

/-- A consecutive record passes its parent check. -/
theorem parentOk_of_consecutive {content : Option String} {steps : List (PayloadRecord × Turn)}
    {p : Progress} {turn : Turn} (hadvance : d.advanceHead = true)
    (hobliging : el.Obliging) (hmatch : HashesMatch (steps.map Prod.fst))
    (hconsecutive : el.Consecutive d s₀ (steps.map Prod.fst))
    (hbase : el.executed s₀ (el.head s₀))
    (hs : Arrives d.turn steps (.start content) n p) (record : steps[n]? = some (r, turn))
    (hserves : el.Serves s₀ (d.preflighted n r turn p).trace t) :
    d.ParentOk r turn p.prevHash := by
  have hrecord : (steps.map Prod.fst)[n]? = some r := by simp [record]
  have hat := at_preflighted hadvance hmatch hconsecutive hs record hserves
  have hprev : p.prevHash = ReplayDriver.remembered (steps.map Prod.fst) n := by
    rw [ReplayDriver.remembered_eq_prevHashAt]
    exact ReplayDriver.prevHash_of_arrives hs
  rcases Nat.eq_zero_or_pos n with rfl | hpos
  · rw [hprev, ReplayDriver.remembered]
    intro _
    rw [ReplayDriver.preflighted_trace, hprev, ReplayDriver.remembered,
      ReplayDriver.preflightCalls, if_pos hadvance] at hserves
    obtain ⟨before, after, hbefore, hreply, -⟩ := hserves.exists_of_snoc
    apply hobliging.valid hreply
    rw [hconsecutive.startsAtHead r hrecord]
    exact hbefore.executed hbase
  · obtain ⟨htip, text, htext⟩ := hat.remembered_eq (Nat.ne_of_gt hpos) hrecord
    rw [hprev, htext]
    rw [htext] at htip
    show r.parentHash.pyEq (.str text) = true
    rw [hconsecutive.parentHash_eq hrecord, ← htip, Json.pyEq_str_iff]

/-- Its payload is taken, and the client has the block from then on. -/
theorem taken_of_consecutive {content : Option String} {steps : List (PayloadRecord × Turn)}
    {p : Progress} {turn : Turn} {call : EngineCall} (hadvance : d.advanceHead = true)
    (hobliging : el.Obliging) (hmatch : HashesMatch (steps.map Prod.fst))
    (hconsecutive : el.Consecutive d s₀ (steps.map Prod.fst))
    (hbase : el.executed s₀ (el.head s₀))
    (hs : Arrives d.turn steps (.start content) n p) (record : steps[n]? = some (r, turn))
    (hcall : d.submission r = .ok call)
    (hserves : el.Serves s₀ (d.submitted n r turn call p).trace t) :
    TakenBy turn.newPayload.result ∧ el.known t r.blockHash := by
  have hrecord : (steps.map Prod.fst)[n]? = some r := by simp [record]
  have hmem : r ∈ steps.map Prod.fst := List.mem_of_getElem? hrecord
  have htrace : (d.submitted n r turn call p).trace =
      (d.preflighted n r turn p).trace ++ [⟨n, .submission, call, turn.newPayload.result⟩] := rfl
  rw [htrace] at hserves
  have hoffered := offered_of_submission hcall
  have hparent := hconsecutive.genuine r hmem
  rw [hmatch r hmem] at hparent
  obtain ⟨before, after, hbefore, hreply, hsince⟩ := hserves.exists_of_snoc
  have hat := at_preflighted hadvance hmatch hconsecutive hs record hbefore
  have hexecuted := hat.executed_tip hbefore hbase
  rw [← hconsecutive.parentHash_eq hrecord] at hexecuted
  obtain ⟨htaken, hknown⟩ := hobliging.takes hreply hoffered hparent hexecuted
  rw [hmatch r hmem]
  exact ⟨htaken, hsince.known hobliging hknown⟩

/-- What a poll of a block the client has cannot find. -/
theorem pollVerdict_of_obliging {reply : Reply} {turn : Turn} {verdict : ReplayDriver.PollEnd}
    (hobliging : el.Obliging)
    (hreply : el.replies s (.forkchoiceUpdated r.blockHash) reply.result t)
    (hknown : el.known s r.blockHash)
    (htime : d.deadline turn < reply.later → ValidBy reply.result)
    (hverdict : d.pollVerdict r (d.deadline turn) reply = some verdict) :
    verdict = .landed reply := by
  obtain ⟨status, hstatus, hne⟩ := hobliging.waits hreply hknown
  obtain ⟨answer, hanswer, hread⟩ := except_bind_eq_ok hstatus
  by_cases hvalid : status = .str "VALID"
  · simp only [ReplayDriver.pollVerdict, hanswer, hread, Json.pyEq_str_iff.mpr hvalid, if_true]
      at hverdict
    exact (Option.some_inj.mp hverdict).symm
  · have hlate : ¬ d.deadline turn < reply.later := by
      intro hlate
      have hready := htime hlate
      rw [ValidBy, hstatus] at hready
      exact hvalid (Except.ok.inj hready)
    simp only [ReplayDriver.pollVerdict, hanswer, hread, Json.pyEq_str_iff, hvalid, hne, gt_iff_lt,
      hlate, if_false] at hverdict
    cases hverdict

/-- A poll that decides has seen its block land. -/
theorem landed_of_obliging {p : Progress} {turn : Turn} {call : EngineCall} {front : List Reply}
    {reply : Reply} {verdict : ReplayDriver.PollEnd} (hobliging : el.Obliging)
    (hknown : ∀ {t}, el.Serves s₀ (d.submitted n r turn call p).trace t → el.known t r.blockHash)
    (htime : d.deadline turn < reply.later → ValidBy reply.result)
    (hverdict : d.pollVerdict r (d.deadline turn) reply = some verdict)
    (hserves : el.Serves s₀ ((d.answered n r turn call p).polled n r (front ++ [reply])).trace t) :
    verdict = .landed reply := by
  have htrace : ((d.answered n r turn call p).polled n r (front ++ [reply])).trace =
      (d.submitted n r turn call p).trace ++ Progress.pollExchanges n r front ++
        [⟨n, .landing, .forkchoiceUpdated r.blockHash, reply.result⟩] := by
    simp [Progress.polled, Progress.pollExchanges, ReplayDriver.answered]
  rw [htrace] at hserves
  obtain ⟨before, after, hbefore, hreply, -⟩ := hserves.exists_of_snoc
  obtain ⟨m, hsubmitted, hpolled⟩ := hbefore.exists_of_append
  exact pollVerdict_of_obliging hobliging hreply (hpolled.known hobliging (hknown hsubmitted))
    htime hverdict

/-- The step lemma: an iteration on a consecutive record does not raise. -/
theorem turn_not_raised {content : Option String} {steps : List (PayloadRecord × Turn)}
    {p p' : Progress} {turn : Turn} {e : Exn} (hadvance : d.advanceHead = true)
    (hobliging : el.Obliging) (htime : InTime d steps) (hmatch : HashesMatch (steps.map Prod.fst))
    (hconsecutive : el.Consecutive d s₀ (steps.map Prod.fst))
    (hbase : el.executed s₀ (el.head s₀))
    (hs : Arrives d.turn steps (.start content) n p) (record : steps[n]? = some (r, turn))
    (hserves : el.Serves s₀ p'.trace t) : d.turn n (r, turn) p ≠ (some (.raised e), p') := by
  intro hturn
  obtain ⟨call, hcall⟩ := hconsecutive.submits r
    (List.mem_map.mpr ⟨_, List.mem_of_getElem? record, rfl⟩)
  have htaken : ∀ {t}, el.Serves s₀ (d.submitted n r turn call p).trace t →
      TakenBy turn.newPayload.result ∧ el.known t r.blockHash := fun hserves =>
    taken_of_consecutive hadvance hobliging hmatch hconsecutive hbase hs record hcall hserves
  -- A payload that was taken: only its poll could still raise.
  have hpolled : ∀ {status}, d.Sent n r turn call p.prevHash → ReplayDriver.Takes turn status →
      False := by
    intro status hsent htakes
    have hsettle := ReplayDriver.turn_eq_settle hsent htakes
    rw [hturn, ReplayDriver.settle, if_pos hadvance] at hsettle
    rcases d.poll_eq n r turn (d.answered n r turn call p) with
      ⟨-, -, hrun⟩ | ⟨front, reply, verdict, hpolls, -, hverdict, -, hrun⟩
    · rw [hrun] at hsettle
      cases hsettle
    · rw [hrun] at hsettle
      have hreply : reply ∈ turn.polls := hpolls.subset (List.mem_append_right _ List.mem_cons_self)
      have hlands : el.Serves s₀ ((d.answered n r turn call p).polled n r (front ++ [reply])).trace
          t → verdict = .landed reply :=
        landed_of_obliging hobliging (fun hserves => (htaken hserves).2)
          (htime _ (List.mem_of_getElem? record) reply hreply) hverdict
      cases verdict with
      | raised e' =>
          obtain ⟨-, rfl⟩ := Prod.mk.inj hsettle
          cases hlands hserves
      | failed label message =>
          obtain ⟨-, rfl⟩ := Prod.mk.inj hsettle
          rw [ReplayDriver.record_trace] at hserves
          cases hlands hserves
      | landed landed => cases hsettle
  have hstep := d.turn_step n r turn p
  rw [hturn] at hstep
  cases hstep with
  | refused e hcut hnot =>
      exact hnot (parentOk_of_consecutive hadvance hobliging hmatch hconsecutive hbase hs record
        hserves)
  | unversioned e hcut hok herror => cases hcall.symm.trans herror
  | escaped e call' hsent hresult =>
      obtain rfl := Except.ok.inj (hcall.symm.trans hsent.call_eq)
      obtain ⟨⟨status, hstatus, -⟩, -⟩ := htaken hserves
      rw [hresult] at hstatus
      cases hstatus
  | unreadable e call' answer hsent hresult hunread =>
      obtain rfl := Except.ok.inj (hcall.symm.trans hsent.call_eq)
      obtain ⟨⟨status, hstatus, -⟩, -⟩ := htaken hserves
      rw [hresult] at hstatus
      cases hunread.symm.trans hstatus
  | rejected call' answer status hsent hresult hread hrejected =>
      obtain rfl := Except.ok.inj (hcall.symm.trans hsent.call_eq)
      rw [ReplayDriver.record_trace] at hserves
      obtain ⟨⟨status', hstatus, haccepted⟩, -⟩ := htaken hserves
      rw [hresult] at hstatus
      obtain rfl := Except.ok.inj (hread.symm.trans hstatus)
      rw [hrejected] at haccepted
      cases haccepted
  | lost e call' status replies hsent htakes _ hpoll =>
      obtain rfl := Except.ok.inj (hcall.symm.trans hsent.call_eq)
      exact hpolled hsent htakes
  | failed call' status label message replies hsent htakes _ hpoll =>
      obtain rfl := Except.ok.inj (hcall.symm.trans hsent.call_eq)
      exact hpolled hsent htakes

/-- **A replay of consecutive blocks to an obliging client never fails.** -/
theorem run_not_raised (el : ExecutionLayer σ) (hobliging : el.Obliging) (d : ReplayDriver)
    (content : Option String) (steps : List (PayloadRecord × Turn)) (path : String)
    (lines : List Line) (hfile : steps.map Prod.fst <+: (loadPayloads path lines).2)
    (hadvance : d.advanceHead = true) (htime : InTime d steps) (s₀ t : σ)
    (hbase : el.executed s₀ (el.head s₀))
    (hconsecutive : el.Consecutive d s₀ (steps.map Prod.fst))
    (hserves : el.Serves s₀ (d.run content steps).2.trace t) (e : Exn) :
    (d.run content steps).1 ≠ .raised e := by
  have hmatch : HashesMatch (steps.map Prod.fst) := fun r hr =>
    blockHash_of_mem_loadPayloads r (hfile.subset hr)
  rcases d.run_cases content steps with
    ⟨s, hs, hrun⟩ | ⟨k, r, turn, s, exit, s', hs, item, hturn, hrun⟩
  · rw [hrun]
    exact nofun
  · rw [hrun, ReplayDriver.ending_trace] at hserves
    rw [hrun]
    cases exit with
    | raised e' =>
        exact absurd hturn (turn_not_raised hadvance hobliging htime hmatch hconsecutive hbase hs
          item hserves)
    | waiting | stop => exact fun hraised => by simp [ReplayDriver.ending] at hraised

theorem obliging_promptClient : promptClient.Obliging where
  takes {s t call result h p} hreply hoffered hparent hexecuted := by
    obtain ⟨rfl, rfl⟩ := hreply
    cases call with
    | newPayload payload =>
        obtain ⟨rfl, rfl⟩ := Prod.mk.inj (Option.some_inj.mp hoffered)
        obtain ⟨parent, hbind, hp⟩ := Option.map_eq_some_iff.mp hparent
        obtain ⟨child, hchild, -⟩ := Option.bind_eq_some_iff.mp hbind
        have hconnects : s.Connects (Dict.get payload "blockHash")
            (Dict.get payload "parentHash") := by
          refine ⟨?_, Prompt.has_iff.mp hexecuted⟩
          rw [hbind, ← hp]
          rfl
        simp only [Prompt.answer, if_pos hconnects]
        refine ⟨⟨_, rfl, by decide⟩, child, ?_, hashText_eq_some_iff.mp hchild⟩
        rw [hchild]
        exact List.mem_append_left _ List.mem_cons_self
    | forkchoiceUpdated head => cases hoffered
  keeps_works h hknown := by rwa [h]
  keeps_replies h hknown := h.2 ▸ hknown.answer
  valid {s t h result} hreply hexecuted := by
    rw [hreply.1, Prompt.answer, if_pos (Prompt.has_iff.mp hexecuted)]
    rfl
  waits {s t h result} hreply hknown := by
    rw [hreply.1, Prompt.answer, if_pos (Prompt.has_iff.mp hknown)]
    exact ⟨.str "VALID", rfl, fun h => absurd (Json.str.inj h) (by decide)⟩

/-- Replaying two consecutive blocks to a client that executes at once. -/
theorem run_not_raised_twoSteps :
    ¬∃ e, (ReplayDriver.plainReplay.run none twoSteps).1 = .raised e := by
  obtain ⟨t, hserves, -⟩ := serves_twoSteps
  rintro ⟨e, hraised⟩
  revert hraised
  apply run_not_raised promptClient obliging_promptClient ReplayDriver.plainReplay none twoSteps
    "payloads.jsonl" twoPayloads ?_ rfl ?_ ⟨.str "0x01", ["0x01"]⟩ t ⟨"0x01", by simp, rfl⟩ ?_
    hserves
  · exact records_twoSteps
  · intro step hstep reply hreply hlate
    obtain ⟨r, -, rfl⟩ := List.mem_map.mp hstep
    obtain rfl := List.mem_singleton.mp hreply
    rfl
  · refine ⟨?_, ?_, ?_⟩
    · have hfirst : threeBlocks.Linked (.str "0x01") ([] ++ [.str "0x02"]) := .grow .base rfl
      exact hfirst.grow (h := .str "0x03") rfl
    · intro r hr
      rcases List.mem_cons.mp hr with rfl | hr
      · rfl
      · obtain rfl := List.mem_singleton.mp hr
        rfl
    · intro r hr
      rcases List.mem_cons.mp hr with rfl | hr
      · exact ⟨_, rfl⟩
      · obtain rfl := List.mem_singleton.mp hr
        exact ⟨_, rfl⟩

end ExecutionLayer

end StateBenchmarks.MockCl
