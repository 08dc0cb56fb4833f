import Switchboard.Proofs.Frame

/-! # What a request frame says

The words of a frame stand with single blanks between them, and nothing marks a blank inside a word. How
many words come before the last one depends on the verb alone, though, so a server that knows the verb
knows at how many blanks to cut. As long as names have no blanks, that takes a frame apart again, and the
last word keeps whatever blanks it has.
-/

namespace Switchboard

/-- The words of a text that is cut at so many blanks at most. -/
def words : Nat → List Char → List (List Char)
  | 0, cs => [cs]
  | n + 1, cs =>
    match cutAt ' ' cs with
    | (front, none) => [front]
    | (front, some rest) => front :: words n rest

/-- Words without blanks come apart again, and what follows them is left whole. With fewer blanks than
allowed nothing follows that could be cut. -/
theorem words_intercalate {n : Nat} {front : List (List Char)} {last : List Char}
    (unbroken : ∀ word ∈ front, ' ' ∉ word)
    (counted : front.length = n ∨ front.length ≤ n ∧ ' ' ∉ last) :
    words n ([' '].intercalate (front ++ [last])) = front ++ [last] := by
  induction front generalizing n with
  | nil =>
      rw [List.nil_append, List.intercalate_singleton]
      cases n with
      | zero => rfl
      | succ n =>
          obtain ⟨-, whole⟩ := counted.resolve_left (Nat.succ_ne_zero n).symm
          rw [words, cutAt_of_not_mem whole]
  | cons word front ih =>
      obtain ⟨first, later⟩ := List.forall_mem_cons.mp unbroken
      cases n with
      | zero => simp at counted
      | succ n =>
          have fewer : front.length = n ∨ front.length ≤ n ∧ ' ' ∉ last := by
            simpa only [List.length_cons, Nat.add_right_cancel_iff, Nat.add_le_add_iff_right]
              using counted
          -- Something follows the first word, so a blank does too, and that is where the cut is.
          obtain ⟨next, rest, shape⟩ := List.exists_cons_of_ne_nil (List.concat_ne_nil last front)
          have rejoined := ih later fewer
          rw [shape] at rejoined
          rw [List.cons_append, shape, List.intercalate_cons_cons, List.append_assoc,
            List.singleton_append, words, cutAt_append ' ' _ first]
          exact congrArg (List.cons word) rejoined

theorem spellRequest_toList (verb : String) (arguments : List String) :
    (spellRequest verb arguments).toList =
      [' '].intercalate (verb.toList :: arguments.map String.toList) := by
  induction arguments generalizing verb with
  | nil => exact List.intercalate_singleton.symm
  | cons argument rest ih =>
      have joined : (verb ++ " " ++ argument).toList = verb.toList ++ [' '] ++ argument.toList := by
        simp
      rw [spellRequest, List.foldl_cons, ← spellRequest, ih, joined, List.map_cons,
        List.intercalate_cons_cons]
      cases rest with
      | nil => simp only [List.map_nil, List.intercalate_singleton]
      | cons other rest => simp only [List.map_cons, List.intercalate_cons_cons, List.append_assoc]

theorem Verb.token_injective {first second : Verb} (same : first.token = second.token) :
    first = second := by
  cases first <;> cases second <;> simp [token] at same ⊢

theorem Verb.blank_not_mem_token (verb : Verb) : ' ' ∉ verb.token.toList := by
  cases verb <;> decide

theorem Comparison.blank_not_mem_token (comparison : Comparison) : ' ' ∉ comparison.token.toList := by
  cases comparison <;> decide

/-- At how many blanks a server cuts what follows the verb. -/
def Verb.cuts : Verb → Nat
  | .exists | .create => 0
  | .get | .delete => 2
  | .set | .list => 4

namespace Command

/-- The names, collections, documents and condition keys in a command. -/
def names : Command → List String
  | .exists name | .create name => [name]
  | .get collection document => [collection, document]
  | .set collection document _ => [collection, document]
  | .list collection none => [collection]
  | .list collection (some condition) => [collection, condition.key]
  | .deleteCollection collection => [collection]
  | .deleteDocument collection document => [collection, document]

/-- No name in the command has a blank. -/
def Unbroken (c : Command) : Prop := ∀ name ∈ c.names, ' ' ∉ name.toList

/-- The arguments of a command and its verb are all there is to it. -/
theorem eq_of_arguments {c d : Command} (verbs : c.verb = d.verb)
    (arguments : c.arguments = d.arguments) : c = d := by
  have tokens : ∀ {a b : Comparison}, a.token = b.token → a = b := by
    intro a b same
    cases a <;> cases b <;> simp [Comparison.token] at same ⊢
  rcases c with _ | _ | _ | _ | ⟨_, _ | ⟨key, comparison, value⟩⟩ | _ | _ <;>
    rcases d with _ | _ | _ | _ | ⟨_, _ | ⟨key', comparison', value'⟩⟩ | _ | _ <;>
      simp_all [verb, Command.arguments]
  exact tokens arguments.2.2.1

/-- Only the last argument may have blanks that the cuts do not count. -/
theorem arguments_cases {c : Command} (unbroken : c.Unbroken) :
    ∃ front last, c.arguments = front ++ [last] ∧ (∀ word ∈ front, ' ' ∉ word.toList) ∧
      (front.length = c.verb.cuts ∨ front.length ≤ c.verb.cuts ∧ ' ' ∉ last.toList) := by
  have keywords : ' ' ∉ "FROM".toList ∧ ' ' ∉ "TO".toList ∧ ' ' ∉ "WHERE".toList := by decide
  obtain ⟨source, target, filter⟩ := keywords
  cases c with
  | «exists» name => exact ⟨[], name, rfl, by simp, Or.inl rfl⟩
  | create name => exact ⟨[], name, rfl, by simp, Or.inl rfl⟩
  | get collection document =>
      have named : ' ' ∉ document.toList := unbroken document (by simp [names])
      exact ⟨[document, "FROM"], collection, rfl, by simp [named], Or.inl rfl⟩
  | set collection document body =>
      have named : ' ' ∉ document.toList := unbroken document (by simp [names])
      have placed : ' ' ∉ collection.toList := unbroken collection (by simp [names])
      exact ⟨[document, "FROM", collection, "TO"], body, rfl, by simp [named, placed], Or.inl rfl⟩
  | list collection condition =>
      cases condition with
      | none =>
          -- Fewer words than a list with a condition has, so the one word there is must not be cut.
          have placed : ' ' ∉ collection.toList := unbroken collection (by simp [names])
          exact ⟨[], collection, rfl, by simp, Or.inr ⟨by simp, placed⟩⟩
      | some condition =>
          have placed : ' ' ∉ collection.toList := unbroken collection (by simp [names])
          have keyed : ' ' ∉ condition.key.toList := unbroken condition.key (by simp [names])
          have compares := condition.comparison.blank_not_mem_token
          exact ⟨[collection, "WHERE", condition.key, condition.comparison.token], condition.value, rfl,
            by simp [placed, keyed, compares], Or.inl rfl⟩
  | deleteCollection collection =>
      have placed : ' ' ∉ collection.toList := unbroken collection (by simp [names])
      exact ⟨[], collection, rfl, by simp, Or.inr ⟨by simp, placed⟩⟩
  | deleteDocument collection document =>
      have named : ' ' ∉ document.toList := unbroken document (by simp [names])
      exact ⟨[document, "FROM"], collection, rfl, by simp [named], Or.inl rfl⟩

/-- The arguments come apart again. -/
theorem words_arguments {c : Command} (unbroken : c.Unbroken) :
    words c.verb.cuts ([' '].intercalate (c.arguments.map String.toList)) =
      c.arguments.map String.toList := by
  obtain ⟨front, last, spelled, whole, counted⟩ := arguments_cases unbroken
  rw [spelled, List.map_append, List.map_singleton]
  apply words_intercalate
  · simpa using whole
  · simpa using counted

theorem arguments_ne_nil (c : Command) : c.arguments ≠ [] := by
  rcases c with _ | _ | _ | _ | ⟨_, _ | _⟩ | _ | _ <;> simp [Command.arguments]

/-- A frame is the marker, the identifier, the verb, and a rest. -/
theorem words_frame (id : RequestId) (c : Command) :
    words 3 (c.frame id).toList =
      [marker.toList, id.token.toList, c.verb.token.toList,
        [' '].intercalate (c.arguments.map String.toList)] := by
  have spelled : (c.frame id).toList =
      [' '].intercalate ([marker.toList, id.token.toList, c.verb.token.toList] ++
        [[' '].intercalate (c.arguments.map String.toList)]) := by
    obtain ⟨first, rest, shape⟩ := List.exists_cons_of_ne_nil c.arguments_ne_nil
    simp [frame, requestFrame, spellRequest_toList, shape, List.intercalate_cons_cons,
      List.intercalate_singleton]
  rw [spelled]
  apply words_intercalate
  · have first : ' ' ∉ marker.toList := by decide
    simp [first, id.blank_not_mem_token, c.verb.blank_not_mem_token]
  · exact Or.inl rfl

/-- A frame is the marker, the identifier in decimal and the text of a command. Two frames are the same
only if their identifiers and verbs are, and if no name has a blank, only if the commands are too. -/
theorem frame_determines_command (i j : RequestId) (c d : Command) :
    c.frame i = "ID " ++ toString i.value.toNat ++ " " ++ c.text ∧
      (c.frame i = d.frame j →
        i = j ∧ c.verb = d.verb ∧ (c = d ∨ ∃ name ∈ c.names ++ d.names, ' ' ∈ name.toList)) := by
  constructor
  · rw [← i.token_eq_toString]
    rfl
  · intro same
    have apart := congrArg (fun frame => words 3 frame.toList) same
    simp only [words_frame, List.cons.injEq, true_and, and_true] at apart
    obtain ⟨tokens, verbs, rest⟩ := apart
    have verb : c.verb = d.verb := Verb.token_injective (String.toList_injective verbs)
    refine ⟨RequestId.token_injective (String.toList_injective tokens), verb, ?_⟩
    by_cases broken : ∃ name ∈ c.names ++ d.names, ' ' ∈ name.toList
    · exact Or.inr broken
    · left
      have unbroken : ∀ name ∈ c.names ++ d.names, ' ' ∉ name.toList := by simpa using broken
      obtain ⟨first, second⟩ := List.forall_mem_append.mp unbroken
      have arguments := congrArg (words c.verb.cuts) rest
      rw [words_arguments first, verb, words_arguments second] at arguments
      have spelled := List.map_injective_iff.mpr (fun _ _ => String.toList_injective) arguments
      exact eq_of_arguments verb spelled

/-- A collection may be named like a document of another one with its place. -/
theorem frame_determines_command_blankName :
    (deleteCollection "a FROM b").frame ⟨7⟩ = (deleteDocument "b" "a").frame ⟨7⟩ ∧
      deleteCollection "a FROM b" ≠ deleteDocument "b" "a" ∧
      ∃ name ∈ (deleteCollection "a FROM b").names ++ (deleteDocument "b" "a").names,
        ' ' ∈ name.toList := by
  have texts : (deleteCollection "a FROM b").text = (deleteDocument "b" "a").text := by decide
  have same : (deleteCollection "a FROM b").frame ⟨7⟩ = (deleteDocument "b" "a").frame ⟨7⟩ :=
    congrArg (marker ++ " " ++ RequestId.token ⟨7⟩ ++ " " ++ ·) texts
  have apart : deleteCollection "a FROM b" ≠ deleteDocument "b" "a" := by simp
  obtain ⟨-, -, equal | broken⟩ :=
    (frame_determines_command ⟨7⟩ ⟨7⟩ (deleteCollection "a FROM b") (deleteDocument "b" "a")).2 same
  · exact absurd equal apart
  · exact ⟨same, apart, broken⟩

end Command

end Switchboard
