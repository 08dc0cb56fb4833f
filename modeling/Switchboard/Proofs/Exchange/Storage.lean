import Switchboard.Proofs.Exchange.Closing
import Switchboard.Proofs.Reply

/-! # A stored document comes back

A peer that keeps the text of a document and hands it back in a reply hands back the document. The text
goes through the printer, the cut at blanks, which its own blanks survive, the envelope and the reader.
-/

namespace Switchboard.Exchange

open Json (Fits)

/-- Whoever has asked for a document finds what was stored, down to the last digit and character. -/
theorem stored_document_comes_back (x : Exchange) (reachable : Reachable x) (id : RequestId)
    (pending : id ∈ x.pending.ids) (collection document : String) (v : Json) (fits : Fits 126 v) :
    ∃ text, (Command.store collection document v).arguments.getLast? = some text ∧
      (x.receive (successFrame id text)).1 = .resolved id ∧
      id ∉ (x.receive (successFrame id text)).2.pending.ids ∧
      ∀ ticket, x.mailroom.owner? ticket = some id → x.isHeld ticket →
        (x.receive (successFrame id text)).2.Finds ticket (.ok v) := by
  have coherent := reachable.coherent
  obtain ⟨p, member, rfl⟩ := PendingTable.mem_ids.mp pending
  have decoded := ReplyFrame.decode_successFrame p.id fits
  obtain ⟨resolved, gone, found⟩ := (coherent.completable member).answered _ _ decoded
  refine ⟨v.compact, rfl, resolved, gone, ?_⟩
  intro ticket owned held
  obtain rfl := (coherent.owner?_iff member).mp owned
  exact found held

/-- A document with the least and the greatest integer, a key with a blank, and a string of characters
that are escaped. -/
def edges : Json :=
  .object [("a b", .array [.number (.exact ⟨leastWord, by decide, by decide⟩), .null]),
    ("c", .object [("", .number (.exact ⟨greatestWord, by decide, by decide⟩)),
      ("\"", .string "\x01 \\\n\"/ü")])]

theorem fits_edges : Fits 126 edges := by
  have word : ∀ depth i, Fits depth (.number (.exact i)) := fun _ i => .integer i
  refine .object (by decide) ?_
  simp only [List.forall_mem_cons, List.not_mem_nil, false_implies, implies_true, and_true]
  refine ⟨.array ?_, .object (by decide) ?_⟩
  · simp [word, Fits.null]
  · simp [word, Fits.string]

theorem stored_document_comes_back_edges :
    let x := (fresh .counter true).after [.dispatch 0 "GET" ["c", "FROM", "a"] {}]
    Reachable x ∧ (⟨1⟩ : RequestId) ∈ x.pending.ids ∧ Fits 126 edges ∧
      ∃ text, (Command.store "a" "c" edges).arguments.getLast? = some text ∧
        (x.receive (successFrame ⟨1⟩ text)).1 = .resolved ⟨1⟩ ∧
        (x.receive (successFrame ⟨1⟩ text)).2.Finds 0 (.ok edges) := by
  intro x
  have reachable : Reachable x := reachable_after .counter true (by decide)
  have pending : (⟨1⟩ : RequestId) ∈ x.pending.ids := by decide
  obtain ⟨text, last, resolved, -, found⟩ :=
    stored_document_comes_back x reachable ⟨1⟩ pending "a" "c" edges fits_edges
  exact ⟨reachable, pending, fits_edges, text, last, resolved, found 0 rfl rfl⟩

end Switchboard.Exchange
