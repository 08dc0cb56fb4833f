import Switchboard.Proofs.Interleaving.Tracking
import Switchboard.Proofs.Interleaving.Departure

/-! # A reply that comes as the time runs out

A wait whose time is up withdraws its request and looks once more, so that it does not miss a reply
that has come in the meantime. It does miss one: a delivery that took the request out before it was
withdrawn and completes it after the last look. Such a delivery returns as if it had succeeded, and
the wait has reported a timeout. No other order of steps loses a reply.
-/

namespace Switchboard.Scene

variable {s : Scene} {limit : UInt64} {ticket : Ticket} {id : RequestId} {r : Reply}

section Returning

theorem Whole.mem_of_carries {t : PendingTable} (whole : s.Whole t) (carries : s.Carries id r) :
    id ∈ t.ids := by
  obtain ⟨c, member, rfl, -⟩ := carries
  exact PendingTable.mem_ids.mpr ⟨c.request, whole.mem_of_inHand member, rfl⟩

theorem Whole.departed {t : PendingTable} (whole : s.Whole t) {box : Mailbox}
    (located : s.exchange.mailroom.boxes[ticket]? = some (id, box))
    (absent : id ∉ s.exchange.pending.ids) : Departed s id :=
  ⟨absent, fun isOpen => whole.coherent.owned isOpen ticket id box located⟩

/-- After the withdrawal the request of the wait is out of the table for good. -/
theorem Tracked.departed (tracked : Tracked s limit ticket id) (sound : Sound s)
    (owned : s.exchange.mailroom.owner? ticket = some id) {i : RequestId} {waited : UInt64}
    (stage : s.waiting = .withdrawn i waited) : Departed s id := by
  obtain ⟨t, whole⟩ := sound.whole
  have located := Mailroom.located_of_owner? owned
  refine whole.departed located ?_
  intro pending
  obtain ⟨p, member, named⟩ := PendingTable.mem_ids.mp pending
  have present : id ∈ t.ids := PendingTable.mem_ids.mpr ⟨p, whole.mem_of_pending member, named⟩
  have waits := whole.waiting_of_mem present located (tracked.held _ located)
  rw [waits] at located
  exact tracked.withdrawn i waited stage located pending

theorem lookAgain_of_reply {x : Exchange}
    (located : x.mailroom.boxes[ticket]? = some (id, .holding r.outcome)) (i : RequestId)
    (waited : UInt64) : (Client.lookAgain x ticket i waited).1 = r.outcome := by
  have polled : (x.poll ticket).1 = some r.outcome := Exchange.poll_fst located
  rw [lookAgain_eq, polled]
  cases r <;> rfl

theorem lookAgain_of_waiting {x : Exchange}
    (located : x.mailroom.boxes[ticket]? = some (id, .waiting)) (i : RequestId) (waited : UInt64) :
    (Client.lookAgain x ticket i waited).1 = .error (.timeout i waited) := by
  have polled : (x.poll ticket).1 = none := Exchange.poll_fst located
  rw [lookAgain_eq, polled]

/-- What is known when the wait returns. If a delivery has the request in hand by then, the wait has
returned a timeout. -/
theorem Tracked.returns (tracked : Tracked s limit ticket id) (sound : Sound s)
    (owned : s.exchange.mailroom.owner? ticket = some id) {outcome : Outcome}
    (running : ∀ outcome, s.waiting ≠ .returned outcome)
    (returns : (s.act limit ticket .wait).waiting = .returned outcome) :
    Departed s id ∧ (∀ r, (id, r) ∈ s.delivered → outcome = r.outcome) ∧
      ∀ r, s.Carries id r → outcome = .error (.timeout id limit) ∧
        ∃ i waited, s.waiting = .withdrawn i waited := by
  obtain ⟨t, whole⟩ := sound.whole
  have located := Mailroom.located_of_owner? owned
  have held := tracked.held _ located
  have holds := tracked.delivered _ located
  rw [act_wait] at returns
  cases stage : s.waiting with
  | returned other => exact absurd stage (running other)
  | expired i waited =>
      rw [stage] at returns
      cases returns
  | watching =>
      rw [stage] at returns
      rcases next_watching limit ticket s.exchange with
        ⟨unowned, -⟩ | ⟨i, waited, -, same⟩ | ⟨found, looked, prompt, same⟩
      · rw [owned] at unowned
        contradiction
      · rw [same] at returns
        cases returns
      · rw [same] at returns
        obtain rfl : found = outcome := Waiting.returned.inj returns
        rw [Exchange.waitFor_fst located] at looked
        -- The time was not up, so the mailbox had something to show.
        have settled : s.exchange.mailroom.box ticket ≠ .waiting := by
          intro waits
          rw [waits] at looked
          exact prompt id limit (Option.some.inj looked).symm
        have absent : id ∉ t.ids := fun present =>
          settled (whole.waiting_of_mem present located held)
        refine ⟨whole.departed located (whole.not_mem_pending absent), ?_, ?_⟩
        · intro r delivered
          rw [holds r delivered] at looked
          exact (Option.some.inj looked).symm
        · intro r carries
          exact absurd (whole.mem_of_carries carries) absent
  | withdrawn i waited =>
      have departed := tracked.departed sound owned stage
      rw [stage] at returns
      have same : (Client.lookAgain s.exchange ticket i waited).1 = outcome :=
        Waiting.returned.inj returns
      refine ⟨departed, ?_, ?_⟩
      · intro r delivered
        rw [holds r delivered] at located
        rw [← same, lookAgain_of_reply located]
      · intro r carries
        rw [whole.waiting_of_mem (whole.mem_of_carries carries) located held] at located
        rw [lookAgain_of_waiting located] at same
        obtain ⟨rfl, rfl⟩ := tracked.timedOut i waited (Or.inr stage) located
        exact ⟨same.symm, i, waited, rfl⟩

/-- A wait that has withdrawn its request did so at some step, when its time was up. -/
theorem exists_withdrawal {i : RequestId} {waited : UInt64} {acts : List Act}
    (stage : (s.play limit ticket acts).waiting = .withdrawn i waited)
    (fresh : s.waiting = .watching) :
    ∃ early late, acts = early ++ .wait :: late ∧
      (s.play limit ticket early).waiting = .expired i waited := by
  induction acts using List.reverseRecOn with
  | nil =>
      rw [play, List.foldl_nil, fresh] at stage
      contradiction
  | append_singleton acts a ih =>
      have last : s.play limit ticket (acts ++ [a]) =
          (s.play limit ticket acts).act limit ticket a := play_append s limit ticket acts [a]
      rw [last] at stage
      by_cases own : a = .wait
      · rw [own, act_wait] at stage
        refine ⟨acts, [], by rw [own], ?_⟩
        cases before : (s.play limit ticket acts).waiting with
        | returned outcome =>
            rw [before] at stage
            cases stage
        | withdrawn i' waited' =>
            rw [before] at stage
            cases stage
        | expired i' waited' =>
            rw [before] at stage
            cases stage
            rfl
        | watching =>
            rw [before] at stage
            rcases next_watching limit ticket (s.play limit ticket acts).exchange with
              ⟨-, same⟩ | ⟨_, _, -, same⟩ | ⟨_, -, -, same⟩ <;>
            · rw [same] at stage
              cases stage
      · rw [act_waiting _ limit ticket own] at stage
        obtain ⟨early, late, rfl, expired⟩ := ih stage
        exact ⟨early, late ++ [a], by simp, expired⟩

/-- Whoever has the request in hand after the withdrawal had it before, for the withdrawal leaves
nothing to take out. -/
theorem Tracked.carries_of_withdrawal (tracked : Tracked s limit ticket id) (sound : Sound s)
    {i : RequestId} {waited : UInt64} (stage : s.waiting = .expired i waited) {late : List Act}
    (legal : s.Legal limit ticket (.wait :: late))
    (owned : (s.play limit ticket (.wait :: late)).exchange.mailroom.owner? ticket = some id)
    (carries : (s.play limit ticket (.wait :: late)).Carries id r) : s.Carries id r := by
  have step : s.act limit ticket .wait =
      { s with exchange := (s.exchange.cancel i).2, waiting := .withdrawn i waited } := by
    rw [act_wait, stage]
    rfl
  have trackedThere : Tracked (s.act limit ticket .wait) limit ticket id := by
    rw [step]
    exact tracked.withdraw stage
  have soundThere : Sound (s.act limit ticket .wait) := sound.act legal.1
  have stageThere : (s.act limit ticket .wait).waiting = .withdrawn i waited := by rw [step]
  have ownedThere : (s.act limit ticket .wait).exchange.mailroom.owner? ticket = some id := by
    have inside := trackedThere.opened (by simp [stageThere])
    obtain ⟨⟨owner, box⟩, located⟩ :
        ∃ entry, (s.act limit ticket .wait).exchange.mailroom.boxes[ticket]? = some entry :=
      ⟨_, List.getElem?_eq_getElem inside⟩
    have same : ((s.act limit ticket .wait).play limit ticket late).exchange.mailroom.owner? ticket =
        some owner := owner?_play (Mailroom.owner?_eq located) late
    have named : owner = id := Option.some.inj (same.symm.trans owned)
    exact named ▸ Mailroom.owner?_eq located
  have departed := trackedThere.departed soundThere ownedThere stageThere
  have carried := (departed.play soundThere legal.2).carries r carries
  rwa [step] at carried

end Returning

/-- A reply is lost only in the hands of its delivery. Take any order of the steps of a wait, of the
deliveries of replies, and of all other operations, in which no one but the wait reads or drops its
handle. A reply whose delivery has returned before the wait does is what the wait returns. A reply
whose delivery returns at any time is what the wait returns as well, unless its delivery had the
request in hand both when the wait withdrew the request and when it looked for the last time; then the
wait has returned a timeout. -/
theorem reply_is_lost_only_in_hand (strategy : IdStrategy) (rejectsOnClose : Bool) (limit : UInt64)
    (ticket : Ticket) (before after : List Act) {id : RequestId} {outcome : Outcome}
    (legal : (start strategy rejectsOnClose).Legal limit ticket (before ++ .wait :: after))
    (owned : ((start strategy rejectsOnClose).play limit ticket before).exchange.mailroom.owner?
      ticket = some id)
    (running : ∀ outcome,
      ((start strategy rejectsOnClose).play limit ticket before).waiting ≠ .returned outcome)
    (returns : ((start strategy rejectsOnClose).play limit ticket (before ++ [.wait])).waiting =
      .returned outcome) :
    let played acts := (start strategy rejectsOnClose).play limit ticket acts
    (∀ r, (id, r) ∈ (played before).delivered → outcome = r.outcome) ∧
      ∀ r, (id, r) ∈ (played (before ++ .wait :: after)).delivered →
        outcome = r.outcome ∨
          outcome = .error (.timeout id limit) ∧ (played before).Carries id r ∧
            ∃ early late i waited, before = early ++ .wait :: late ∧
              (played early).waiting = .expired i waited ∧ (played early).Carries id r := by
  intro played
  obtain ⟨legalBefore, allowed, legalAfter⟩ := legal_append.mp legal
  have sound := (Sound.start strategy rejectsOnClose).play legalBefore
  have tracked := (Tracked.start strategy rejectsOnClose limit ticket id).play
    (Sound.start strategy rejectsOnClose) legalBefore running
  rw [play_append] at returns
  obtain ⟨departed, delivered, carried⟩ := tracked.returns sound owned running returns
  refine ⟨delivered, ?_⟩
  intro r ended
  obtain ⟨still, remains⟩ : Departed ((played before).act limit ticket .wait) id ∧
      Remains (played before) ((played before).act limit ticket .wait) id :=
    departed.act sound allowed
  have later := remains.trans (still.play (sound.act allowed) legalAfter)
  have whole : played (before ++ .wait :: after) =
      ((played before).act limit ticket .wait).play limit ticket after :=
    play_append _ limit ticket before (.wait :: after)
  rw [whole] at ended
  rcases later.delivered r ended with earlier | carries
  · exact Or.inl (delivered r earlier)
  · obtain ⟨timedOut, i, waited, stage⟩ := carried r carries
    refine Or.inr ⟨timedOut, carries, ?_⟩
    obtain ⟨early, late, rfl, expired⟩ := exists_withdrawal stage rfl
    obtain ⟨legalEarly, legalLate⟩ := legal_append.mp legalBefore
    have soundEarly := (Sound.start strategy rejectsOnClose).play legalEarly
    have trackedEarly := (Tracked.start strategy rejectsOnClose limit ticket id).play
      (Sound.start strategy rejectsOnClose) legalEarly (by simp [expired])
    have carriesThere : ((played early).play limit ticket (.wait :: late)).Carries id r := by
      rw [← play_append]
      exact carries
    rw [play_append] at owned
    exact ⟨early, late, i, waited, rfl, expired,
      trackedEarly.carries_of_withdrawal soundEarly expired legalLate owned carriesThere⟩

/-- A reply to the first request. -/
def replyToFirst : String := "ID 1 \x7b\"status\":\"success\",\"data\":true\x7d"

/-- The time is up, and the reply is delivered before the request is withdrawn. -/
def caught : List Act := [.send 0 "GET" ["a"], .wait, .arrive replyToFirst, .finish 0, .wait]

theorem reply_is_lost_only_in_hand_caught :
    let s := start .counter true
    s.Legal 100 0 (caught ++ .wait :: [.close "over"]) ∧
      (s.play 100 0 caught).exchange.mailroom.owner? 0 = some ⟨1⟩ ∧
      (∀ outcome, (s.play 100 0 caught).waiting ≠ .returned outcome) ∧
      (s.play 100 0 (caught ++ [.wait])).waiting = .returned (.ok (.bool true)) ∧
      ∀ r, (⟨1⟩, r) ∈ (s.play 100 0 (caught ++ .wait :: [.close "over"])).delivered →
        .ok (.bool true) = r.outcome := by
  intro s
  have room : s.exchange.ids.HasNext := by
    unfold IdSource.HasNext
    decide
  have legal : s.Legal 100 0 (caught ++ .wait :: [.close "over"]) :=
    ⟨room, trivial, trivial, trivial, trivial, trivial, trivial, trivial⟩
  have owned : (s.play 100 0 caught).exchange.mailroom.owner? 0 = some ⟨1⟩ := by cbv
  have stage : (s.play 100 0 caught).waiting = .withdrawn ⟨1⟩ 100 := by cbv
  have running : ∀ outcome, (s.play 100 0 caught).waiting ≠ .returned outcome := by simp [stage]
  have returns : (s.play 100 0 (caught ++ [.wait])).waiting = .returned (.ok (.bool true)) := by cbv
  obtain ⟨-, ended⟩ := reply_is_lost_only_in_hand .counter true 100 0 caught [.close "over"] legal
    owned running returns
  refine ⟨legal, owned, running, returns, ?_⟩
  intro r delivered
  rcases ended r delivered with same | ⟨timedOut, -⟩
  · exact same
  · cases timedOut

/-- The time is up. The delivery takes the request out before it is withdrawn, and completes it after
the last look. -/
def overtaken : List Act :=
  [.send 0 "GET" ["a"], .wait, .arrive replyToFirst, .wait, .wait, .finish 0]

/-- It is not so that a wait always returns the reply whose delivery returns. -/
theorem reply_can_be_lost :
    ¬ ∀ (strategy : IdStrategy) (rejectsOnClose : Bool) (limit : UInt64) (ticket : Ticket)
        (acts : List Act) (id : RequestId) (outcome : Outcome) (r : Reply) (s : Scene),
      s = (start strategy rejectsOnClose).play limit ticket acts →
      (start strategy rejectsOnClose).Legal limit ticket acts →
      s.exchange.mailroom.owner? ticket = some id → s.waiting = .returned outcome →
      (id, r) ∈ s.delivered → outcome = r.outcome := by
  intro never
  have room : (start .counter true).exchange.ids.HasNext := by
    unfold IdSource.HasNext
    decide
  have legal : (start .counter true).Legal 100 0 overtaken :=
    ⟨room, trivial, trivial, trivial, trivial, trivial, trivial⟩
  have owned : ((start .counter true).play 100 0 overtaken).exchange.mailroom.owner? 0 =
      some ⟨1⟩ := by cbv
  have returns : ((start .counter true).play 100 0 overtaken).waiting =
      .returned (.error (.timeout ⟨1⟩ 100)) := by cbv
  have delivered : ((start .counter true).play 100 0 overtaken).delivered =
      [(⟨1⟩, .success (.bool true))] := by cbv
  have same := never .counter true 100 0 overtaken ⟨1⟩ _ (.success (.bool true)) _ rfl legal owned
    returns (by simp [delivered])
  cases same

end Switchboard.Scene
