import Phrasebook.Message.Parse
import Phrasebook.Proofs.Trees

/-!
The file that a text is registered as matters to the places in its tree only: read for another
file it gives the same tree, or the same fault, there.
-/
namespace Phrasebook

/-- The same range in another file. -/
def Span.inFile (file : UInt32) (s : Span) : Span :=
  ⟨file, s.start, s.stop⟩

@[simp] theorem Span.isEmpty_inFile (file : UInt32) (s : Span) :
    (s.inFile file).isEmpty = s.isEmpty := rfl

@[simp] theorem Span.between_inFile (file file' : UInt32) (start stop : Nat) :
    (Span.between file' start stop).inFile file = Span.between file start stop := rfl

def Style.inFile (file : UInt32) : Style → Style
  | .default => .default
  | .named name span => .named name (span.inFile file)
  | .skeleton text options span => .skeleton text options (span.inFile file)

/-- A branch in another file, with other things in its body. -/
def Branch.inFile {α β : Type} (file : UInt32) (move : α → β) (b : Branch α) : Branch β :=
  ⟨b.key, b.keySpan.inFile file, b.span.inFile file, b.body.map move⟩

namespace Node

mutual

/-- The same element in another file. -/
def inFile (file : UInt32) : Node → Node
  | .literal span text => .literal (span.inFile file) text
  | .argument span name nameSpan => .argument (span.inFile file) name (nameSpan.inFile file)
  | .select span name nameSpan cases =>
    .select (span.inFile file) name (nameSpan.inFile file) (branchesInFile file cases)
  | .plural span name nameSpan offset kind cases =>
    .plural (span.inFile file) name (nameSpan.inFile file) offset kind (branchesInFile file cases)
  | .format span kind name nameSpan style =>
    .format (span.inFile file) kind name (nameSpan.inFile file) (style.inFile file)
  | .pound span => .pound (span.inFile file)
  | .tag span name nameSpan selfClosing children =>
    .tag (span.inFile file) name (nameSpan.inFile file) selfClosing (listInFile file children)
  | .unknown span => .unknown (span.inFile file)
  | .hole => .hole

def listInFile (file : UInt32) : List Node → List Node
  | [] => []
  | n :: r => inFile file n :: listInFile file r

def branchesInFile (file : UInt32) : List (Branch Node) → List (Branch Node)
  | [] => []
  | b :: r => branchInFile file b :: branchesInFile file r

def branchInFile (file : UInt32) : Branch Node → Branch Node
  | ⟨key, keySpan, span, body⟩ =>
    ⟨key, keySpan.inFile file, span.inFile file, listInFile file body⟩

end

theorem listInFile_eq_map (file : UInt32) (ns : List Node) :
    listInFile file ns = ns.map (inFile file) := by
  induction ns with
  | nil => rfl
  | cons n r ih => rw [listInFile, ih, List.map_cons]

theorem branchesInFile_eq_map (file : UInt32) (cases : List (Branch Node)) :
    branchesInFile file cases = cases.map (·.inFile file (inFile file)) := by
  induction cases with
  | nil => rfl
  | cons b r ih =>
    rw [branchesInFile, ih, List.map_cons, branchInFile.eq_def]
    simp only [listInFile_eq_map, Branch.inFile]

end Node

namespace Message

def Cause.inFile (file : UInt32) : Cause → Cause
  | .duplicateSelector key first => .duplicateSelector key (first.inFile file)
  | .mismatchedTag closing opening openSpan => .mismatchedTag closing opening (openSpan.inFile file)
  | cause => cause

def Fault.inFile (file : UInt32) (f : Fault) : Fault :=
  ⟨f.cause.inFile file, f.span.inFile file⟩

/-! ### Outcomes -/

/-- The same outcome of reading in another file. -/
def moved {α : Type} (file : UInt32) (move : α → α) : Except Fault (Read α) → Except Fault (Read α)
  | .ok (a, c) => .ok (move a, c)
  | .error f => .error (f.inFile file)

section Moved

variable {α β : Type} (file : UInt32) (move : α → α)

@[simp] theorem moved_ok (a : α) (c : Cursor) : moved file move (.ok (a, c)) = .ok (move a, c) := rfl

@[simp] theorem moved_pure (a : α) (c : Cursor) :
    moved file move (pure (a, c)) = pure (move a, c) := rfl

@[simp] theorem moved_error (f : Fault) :
    moved file move (.error f : Except Fault (Read α)) = .error (f.inFile file) := rfl

@[simp] theorem moved_fail (cause : Cause) (span : Span) :
    moved file move (fail cause span : Except Fault (Read α)) =
      fail (cause.inFile file) (span.inFile file) := rfl

variable {file move}

/-- What follows a reader may move as the reader does. -/
theorem moved_bind {next : β → β} {x x' : Except Fault (Read α)}
    {k k' : Read α → Except Fault (Read β)} (hx : x' = moved file move x)
    (hk : ∀ a c, k' (move a, c) = moved file next (k (a, c))) :
    (x' >>= k') = moved file next (x >>= k) := by
  rw [hx]
  match x with
  | .ok (a, c) => exact hk a c
  | .error f => rfl

end Moved

@[simp] theorem spanTo_inFile (file file' : UInt32) (start stop : Cursor) :
    (start.spanTo file' stop).inFile file = start.spanTo file stop := rfl

@[simp] theorem here_inFile (file file' : UInt32) (c : Cursor) :
    (c.here file').inFile file = c.here file := rfl

/-- Reads bodies as before, in another file. -/
def movedBody (file : UInt32) (read : Bool → Reader (List Node)) : Bool → Reader (List Node) :=
  fun inPlural c => moved file (List.map (Node.inFile file)) (read inPlural c)

def Inner.inFile (file : UInt32) (inner : Inner) : Inner :=
  ⟨inner.tagBody.map (movedBody file), inner.caseBody.map (movedBody file)⟩

/-! ### Readers -/

section Readers

variable {file file' : UInt32} {limit : Nat}

theorem unexpectedCloser_moved (c : Cursor) :
    unexpectedCloser ⟨file, limit⟩ c = (unexpectedCloser ⟨file', limit⟩ c).inFile file := by
  unfold unexpectedCloser
  split <;> rfl

theorem readSiblings_moved {element element' : Reader Node}
    (h : ∀ c, element' c = moved file (Node.inFile file) (element c)) (fuel : Nat) (c : Cursor) :
    readSiblings element' fuel c =
      moved file (List.map (Node.inFile file)) (readSiblings element fuel c) := by
  induction fuel generalizing c with
  | zero => rfl
  | succ fuel ih =>
    unfold readSiblings
    split
    · rfl
    · rfl
    · rfl
    · refine moved_bind (h c) fun n c => ?_
      exact moved_bind (ih c) fun ns c => rfl

theorem readTagBody_moved {body body' : Reader (List Node)}
    (h : ∀ c, body' c = moved file (List.map (Node.inFile file)) (body c)) (start : Cursor)
    (name : String) (nameSpan : Span) (c : Cursor) :
    readTagBody ⟨file, limit⟩ body' start name (nameSpan.inFile file) c =
      moved file (Node.inFile file) (readTagBody ⟨file', limit⟩ body start name nameSpan c) := by
  unfold readTagBody
  refine moved_bind (h c) fun children closing => ?_
  simp only
  split
  · rfl
  · cases (scanTagName ((closing.eatWord? ['<', '/']).getD closing)).2.skipBlank.eat? '>' with
    | none => rfl
    | some c =>
      simp only
      split
      · rfl
      · simp only [moved_pure, Node.inFile, Node.listInFile_eq_map, spanTo_inFile]

theorem readTag_moved (inner : Inner) (inPlural : Bool) (start inside : Cursor) :
    readTag ⟨file, limit⟩ (inner.inFile file) inPlural start inside =
      moved file (Node.inFile file) (readTag ⟨file', limit⟩ inner inPlural start inside) := by
  unfold readTag
  simp only [Inner.inFile]
  cases inner.tagBody with
  | none => rfl
  | some body =>
    simp only [Option.map_some]
    generalize (scanTagName inside).2.skipBlank = c
    cases c.eatWord? ['/', '>'] with
    | some c => simp only [moved_pure, Node.inFile, Node.listInFile, spanTo_inFile]
    | none =>
      cases c.eat? '>' with
      | some c =>
        simp only
        rw [← spanTo_inFile file file' inside]
        exact readTagBody_moved (fun c => rfl) start _ _ c
      | none =>
        simp only
        split
        · rfl
        · rfl

theorem skeletonOptions_moved (kind : FormatKind) (raw : List Char) (offset : Nat) :
    skeletonOptions ⟨file, limit⟩ kind raw offset =
      (skeletonOptions ⟨file', limit⟩ kind raw offset).mapError (Fault.inFile file) := by
  unfold skeletonOptions
  simp only
  split
  · rfl
  · rfl

theorem readStyle_moved (start : Cursor) (kind : FormatKind) (c : Cursor) :
    readStyle ⟨file, limit⟩ start kind c =
      moved file (Style.inFile file) (readStyle ⟨file', limit⟩ start kind c) := by
  unfold readStyle
  simp only
  generalize c.skipBlank = c
  generalize hraw : Cursor.takeWhile _ _ = r
  obtain ⟨raw, c₁⟩ := r
  simp only
  split
  · rfl
  · cases c₁.eat? '}' with
    | none => rfl
    | some closed =>
      simp only
      generalize (Cursor.eatWord? _ c).getD c = textStart
      cases Cursor.eatWord? _ c with
      | none =>
        simp only
        split
        · rfl
        · rfl
      | some _ =>
        simp only
        rw [@skeletonOptions_moved file file']
        cases skeletonOptions ⟨file', limit⟩ kind raw textStart.offset with
        | ok o => rfl
        | error f => rfl

theorem readFormat_moved (start : Cursor) (kind : FormatKind) (name : String) (nameSpan : Span)
    (c : Cursor) :
    readFormat ⟨file, limit⟩ start kind name (nameSpan.inFile file) c =
      moved file (Node.inFile file) (readFormat ⟨file', limit⟩ start kind name nameSpan c) := by
  unfold readFormat
  simp only
  generalize c.skipBlank = c
  split
  · rfl
  · cases c.eat? '}' with
    | some c => simp only [moved_pure, Node.inFile, Style.inFile, spanTo_inFile]
    | none =>
      cases c.eat? ',' with
      | none => rfl
      | some c =>
        refine moved_bind (readStyle_moved start kind c) fun style c => ?_
        simp only [moved_pure, Node.inFile, spanTo_inFile]

/-! ### Choices -/

theorem readOffset_moved (c : Cursor) :
    readOffset ⟨file, limit⟩ c = moved file id (readOffset ⟨file', limit⟩ c) := by
  unfold readOffset
  simp only
  split
  · rfl
  · split
    · rfl
    · rfl

theorem readKey_moved (plural : Bool) (start : Cursor) :
    readKey ⟨file, limit⟩ plural start = moved file id (readKey ⟨file', limit⟩ plural start) := by
  unfold readKey
  simp only
  split
  · split
    · rfl
    · rfl
  · split
    · rfl
    · split
      · rfl
      · rfl

/-- How the body of a case is read, if it can be. -/
def movedReader (file : UInt32) (read : Reader (List Node)) : Reader (List Node) :=
  fun c => moved file (List.map (Node.inFile file)) (read c)

theorem readBody_moved (body : Option (Reader (List Node))) (start : Cursor) (key : String)
    (c : Cursor) :
    readBody ⟨file, limit⟩ (body.map (movedReader file)) start key c =
      moved file (List.map (Node.inFile file)) (readBody ⟨file', limit⟩ body start key c) := by
  unfold readBody
  simp only
  generalize c.skipBlank = c
  cases c.eat? '{' with
  | none =>
    simp only
    split
    · rfl
    · rfl
  | some inside =>
    cases body with
    | none => rfl
    | some read =>
      refine moved_bind rfl fun nodes stop => ?_
      simp only
      split
      · rfl
      · cases stop.eat? '}' with
        | some closed => rfl
        | none => exact congrArg Except.error (unexpectedCloser_moved stop)

/-- A branch in another file. -/
def movedCase (file : UInt32) : Branch Node → Branch Node :=
  Branch.inFile file (Node.inFile file)

theorem readCase_moved (plural : Bool) (body : Option (Reader (List Node))) (start : Cursor)
    (earlier : List (Branch Node)) (c : Cursor) :
    readCase ⟨file, limit⟩ plural (body.map (movedReader file)) start
        (earlier.map (movedCase file)) c =
      moved file (movedCase file) (readCase ⟨file', limit⟩ plural body start earlier c) := by
  unfold readCase
  refine moved_bind (readKey_moved plural c) fun key afterKey => ?_
  have hfind : (earlier.map (movedCase file)).find? (·.key == key) =
      (earlier.find? (·.key == key)).map (movedCase file) := by
    rw [List.find?_map]
    rfl
  simp only [id_eq, hfind]
  cases earlier.find? (·.key == key) with
  | some first => rfl
  | none => exact moved_bind (readBody_moved body start key afterKey) fun nodes stop => rfl

def Cases.inFile (file : UInt32) (done : Cases) : Cases :=
  ⟨done.cases.map (movedCase file), done.offset⟩

theorem readCases_moved (plural : Bool) (body : Option (Reader (List Node))) (start : Cursor)
    (fuel : Nat) (done : Cases) (c : Cursor) :
    readCases ⟨file, limit⟩ plural (body.map (movedReader file)) start fuel (done.inFile file) c =
      moved file (Cases.inFile file)
        (readCases ⟨file', limit⟩ plural body start fuel done c) := by
  induction fuel generalizing done c with
  | zero => rfl
  | succ fuel ih =>
    unfold readCases
    have hempty : (done.inFile file).cases.isEmpty = done.cases.isEmpty := by
      rw [Cases.inFile, List.isEmpty_map]
    simp only [hempty]
    generalize c.skipBlank = c
    split
    · rfl
    · cases c.eat? '}' with
      | some closed =>
        simp only
        split
        · rfl
        · rfl
      | none =>
        simp only
        -- whether an offset is read depends on no file
        generalize (if plural && done.cases.isEmpty then c.eatWord? "offset:".toList else none) =
          marked
        cases marked with
        | some c =>
          refine moved_bind (readOffset_moved c) fun x c => ?_
          exact ih { done with offset := x } c
        | none =>
          refine moved_bind (readCase_moved plural body start done.cases c) fun b c => ?_
          have hnext : (⟨(done.inFile file).cases ++ [movedCase file b], done.offset⟩ : Cases) =
              Cases.inFile file { done with cases := done.cases ++ [b] } := by
            simp only [Cases.inFile, List.map_append, List.map_cons, List.map_nil]
          exact (congrArg (readCases _ _ _ _ fuel · c) hnext).trans (ih _ c)

theorem readChoice_moved (inner : Inner) (inPlural plural : Bool) (start c : Cursor) :
    readChoice ⟨file, limit⟩ (inner.inFile file) inPlural plural start c =
      moved file (Cases.inFile file)
        (readChoice ⟨file', limit⟩ inner inPlural plural start c) := by
  unfold readChoice
  simp only
  generalize c.skipBlank = c
  split
  · rfl
  · cases c.eat? ',' with
    | none => rfl
    | some c =>
      have hbody : (inner.inFile file).caseBody.map (fun read => read (inPlural || plural)) =
          (inner.caseBody.map fun read => read (inPlural || plural)).map (movedReader file) := by
        rw [Inner.inFile, Option.map_map, Option.map_map]
        rfl
      simp only [hbody]
      exact readCases_moved plural _ start _ ⟨[], 0⟩ c

/-! ### Elements -/

theorem readTyped_moved (inner : Inner) (inPlural : Bool) (start : Cursor) (name : String)
    (nameSpan : Span) (type : String) (typeSpan : Span) (c : Cursor) :
    readTyped ⟨file, limit⟩ (inner.inFile file) inPlural start name (nameSpan.inFile file) type
        (typeSpan.inFile file) c =
      moved file (Node.inFile file)
        (readTyped ⟨file', limit⟩ inner inPlural start name nameSpan type typeSpan c) := by
  unfold readTyped
  split
  · exact readFormat_moved start .number name nameSpan c
  · exact readFormat_moved start .date name nameSpan c
  · exact readFormat_moved start .time name nameSpan c
  · refine moved_bind (readChoice_moved inner inPlural false start c) fun cs c => ?_
    simp only [moved_pure, Node.inFile, Node.branchesInFile_eq_map, spanTo_inFile]
    rfl
  · refine moved_bind (readChoice_moved inner inPlural true start c) fun cs c => ?_
    simp only [moved_pure, Node.inFile, Node.branchesInFile_eq_map, spanTo_inFile]
    rfl
  · refine moved_bind (readChoice_moved inner inPlural true start c) fun cs c => ?_
    simp only [moved_pure, Node.inFile, Node.branchesInFile_eq_map, spanTo_inFile]
    rfl
  · rfl

theorem readNamed_moved (inner : Inner) (inPlural : Bool) (start : Cursor) (name : String)
    (nameSpan : Span) (c : Cursor) :
    readNamed ⟨file, limit⟩ (inner.inFile file) inPlural start name (nameSpan.inFile file) c =
      moved file (Node.inFile file)
        (readNamed ⟨file', limit⟩ inner inPlural start name nameSpan c) := by
  unfold readNamed
  simp only
  generalize c.skipBlank = c
  split
  · rfl
  · cases c.eat? '}' with
    | some c => simp only [moved_ok, Node.inFile, spanTo_inFile]
    | none =>
      cases c.eat? ',' with
      | none => rfl
      | some c =>
        simp only
        split
        · split
          · rfl
          · rfl
        · rw [← spanTo_inFile file file' c.skipBlank]
          exact readTyped_moved inner inPlural start name nameSpan _ _ _

theorem readArgument_moved (inner : Inner) (inPlural : Bool) (start inside : Cursor) :
    readArgument ⟨file, limit⟩ (inner.inFile file) inPlural start inside =
      moved file (Node.inFile file)
        (readArgument ⟨file', limit⟩ inner inPlural start inside) := by
  have hnone : (inner.inFile file).tagBody.isNone = inner.tagBody.isNone := by
    rw [Inner.inFile, Option.isNone_map]
  unfold readArgument
  simp only [hnone]
  generalize inside.skipBlank = c
  split
  · rfl
  · split
    · rfl
    · cases c.eat? '}' with
      | some c => rfl
      | none =>
        simp only
        split
        · rfl
        · rw [← spanTo_inFile file file' c]
          exact readNamed_moved inner inPlural start _ _ _

theorem readElement_moved (inner : Inner) (inPlural : Bool) (c : Cursor) :
    readElement ⟨file, limit⟩ (inner.inFile file) inPlural c =
      moved file (Node.inFile file) (readElement ⟨file', limit⟩ inner inPlural c) := by
  have hliteral : readLiteral ⟨file, limit⟩ inPlural c =
      moved file (Node.inFile file) (readLiteral ⟨file', limit⟩ inPlural c) := by
    unfold readLiteral
    simp only [moved_ok, Node.inFile, spanTo_inFile]
  unfold readElement
  split
  · exact readArgument_moved inner inPlural c _
  · split
    · exact readTag_moved inner inPlural c _
    · exact hliteral
  · split
    · simp only [moved_ok, Node.inFile, spanTo_inFile]
    · exact hliteral
  · exact hliteral

theorem readNodes_moved (budget : Nat) :
    readNodes ⟨file, limit⟩ budget = movedBody file (readNodes ⟨file', limit⟩ budget) := by
  induction budget using Nat.strongRecOn with
  | ind budget ih =>
    funext inPlural c
    -- a tag takes one level of the budget, a case of an argument two
    match budget, ih with
    | 0, _ =>
      exact readSiblings_moved (readElement_moved ⟨none, none⟩ inPlural) _ c
    | 1, ih =>
      rw [readNodes, ih 0 (by omega)]
      exact readSiblings_moved
        (readElement_moved ⟨some (readNodes ⟨file', limit⟩ 0), none⟩ inPlural) _ c
    | budget + 2, ih =>
      rw [readNodes, ih (budget + 1) (by omega), ih budget (by omega)]
      exact readSiblings_moved
        (readElement_moved ⟨some (readNodes ⟨file', limit⟩ (budget + 1)),
          some (readNodes ⟨file', limit⟩ budget)⟩ inPlural) _ c

end Readers

/-- The same refusal of a text in another file. -/
def Refusal.inFile (file : UInt32) : Refusal → Refusal
  | .fault f => .fault (f.inFile file)
  | .overflow => .overflow

/-- The same result of reading a whole text in another file. -/
def outcomeInFile (file : UInt32) : Except Refusal (List Node) → Except Refusal (List Node)
  | .ok ns => .ok (ns.map (Node.inFile file))
  | .error r => .error (r.inFile file)

/-- A text registered as another file is read as before, there. -/
theorem parse_inFile (file file' : UInt32) (limit : Nat) (content : Bytes) :
    parse file limit content = outcomeInFile file (parse file' limit content) := by
  unfold parse
  split
  · rfl
  · split
    · rename_i cs _
      unfold parseChars
      simp only
      rw [@readNodes_moved file file']
      simp only [movedBody]
      cases readNodes ⟨file', limit⟩ limit false ⟨0, cs⟩ with
      | error f => rfl
      | ok r =>
        obtain ⟨ns, c⟩ := r
        simp only [moved_ok, bind, Except.bind]
        split
        · rfl
        · exact congrArg (fun f => Except.error (Refusal.fault f)) (unexpectedCloser_moved c)
    · rfl

end Message

end Phrasebook
