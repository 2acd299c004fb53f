import Phrasebook.Proofs.SkeletonPlaces

/-!
How reading ends. A text is read to a tree or refused with one fault, and each place that a fault
names is one of the text. The loops of the reader never stop for want of fuel.
-/
namespace Phrasebook

/-- A span of a file of so many bytes. -/
structure Span.Within (file : UInt32) (size : Nat) (s : Span) : Prop where
  file_eq : s.file = file
  start_le : s.start.toNat ≤ s.stop.toNat
  stop_le : s.stop.toNat ≤ size

namespace Message

open Cursor

/-- The fault and its notes name places of a file of so many bytes. -/
structure Fault.Placed (file : UInt32) (size : Nat) (f : Fault) : Prop where
  span : f.span.Within file size
  notes : ∀ n ∈ f.cause.notes, n.span.Within file size

/-- The fault is placed in a text, and if it is one of a skeleton, it tells where its token is. -/
structure Fault.Told (file : UInt32) (text : List Char) (f : Fault) : Prop where
  placed : f.Placed file (Utf8.encode text).length
  reported : ∀ token reason, f.cause = .invalidSkeleton token reason →
    Reported file text f.span token

/-- What fails does so with a fault that is placed in the text. -/
def Blames {α : Type} (file : UInt32) (text : List Char) (x : Except Fault α) : Prop :=
  ∀ f, x = .error f → f.Told file text

/-! ### Places -/

namespace Cursor

theorem leads_takeWhile (p : Char → Bool) (c : Cursor) : c.Leads (c.takeWhile p).2 :=
  (takeWhile_eq_iff.mp (rfl : c.takeWhile p = (_, _))).passes.leads

theorem leads_of_eat? {c c' : Cursor} {ch : Char} (h : c.eat? ch = some c') : c.Leads c' :=
  (eat?_eq_some_iff.mp h).leads

theorem leads_of_eatWord? {c c' : Cursor} {word : List Char} (h : c.eatWord? word = some c') :
    c.Leads c' :=
  (eatWord?_eq_some_iff.mp h).leads

/-- A step that may be taken leads on, taken or not. -/
theorem leads_getD {c : Cursor} {step : Option Cursor} (h : ∀ c', step = some c' → c.Leads c') :
    c.Leads (step.getD c) := by
  cases step with
  | none => exact .refl c
  | some c' => exact h c' rfl

end Cursor

theorem leads_scanName (c : Cursor) : c.Leads (scanName c).2 :=
  c.leads_takeWhile isNameChar

theorem leads_scanTagName (c : Cursor) : c.Leads (scanTagName c).2 := by
  unfold scanTagName
  split
  · exact c.leads_takeWhile isTagChar
  · exact .refl c

section Places

variable {file : UInt32} {text : List Char}

theorem within_between {size start stop : Nat} (hsize : size < 2 ^ 32) (hle : start ≤ stop)
    (hstop : stop ≤ size) : (Span.between file start stop).Within file size := by
  have hstart' : (Span.between file start stop).start.toNat = start := toNat_toUInt32 (by omega)
  have hstop' : (Span.between file start stop).stop.toNat = stop := toNat_toUInt32 (by omega)
  exact ⟨rfl, by omega, by omega⟩

theorem Cursor.In.within {c c' : Cursor} (hsize : (Utf8.encode text).length < 2 ^ 32)
    (hc : c.In text) (h : c.Leads c') :
    (c.spanTo file c').Within file (Utf8.encode text).length :=
  within_between hsize h.offset_le (hc.leads h).offset_le

/-- The next character, or none at the end, is of the text. -/
theorem Cursor.In.within_here {c : Cursor} (hsize : (Utf8.encode text).length < 2 ^ 32)
    (hc : c.In text) : (c.here file).Within file (Utf8.encode text).length := by
  have hskip : c.Leads (c.skip (c.rest.take 1) (c.rest.drop 1)) :=
    (passes_skip (List.take_append_drop 1 c.rest).symm).leads
  exact hc.within hsize hskip

end Places

namespace Blames

variable {α β : Type} {file : UInt32} {text : List Char}

theorem ok (a : α) : Blames file text (.ok a) :=
  fun _ h => nomatch h

theorem error {f : Fault} (h : f.Told file text) :
    Blames file text (.error f : Except Fault α) := by
  intro g hg
  rw [← Except.error.inj hg]
  exact h

/-- A fault without notes that is not one of a skeleton. -/
theorem fail {cause : Cause} {span : Span} (hspan : span.Within file (Utf8.encode text).length)
    (hnotes : cause.notes = []) (hcause : ∀ token reason, cause ≠ .invalidSkeleton token reason) :
    Blames file text (Message.fail cause span : Except Fault α) :=
  error ⟨⟨hspan, fun _ hn => absurd (hnotes ▸ hn) List.not_mem_nil⟩,
    fun token reason h => absurd h (hcause token reason)⟩

theorem bind {x : Except Fault α} {f : α → Except Fault β} (hx : Blames file text x)
    (hf : ∀ a, x = .ok a → Blames file text (f a)) : Blames file text (x >>= f) := by
  cases x with
  | ok a => exact hf a rfl
  | error g => exact error (hx g rfl)

end Blames

/-! ### Readers -/

/-- Wherever it starts in the text, a reader that fails blames a place of the text. -/
def Locates {α : Type} (file : UInt32) (text : List Char) (read : Reader α) : Prop :=
  ∀ c, c.In text → Blames file text (read c)

section Readers

variable {ctx : Context} {text : List Char} {inner : Inner} {inPlural plural : Bool}
variable {start inside c : Cursor} {name key : String} {nameSpan : Span}
variable {body : Option (Reader (List Node))}
variable (hsize : (Utf8.encode text).length < 2 ^ 32)

include hsize

theorem unexpectedCloser_told (hc : c.In text) :
    (unexpectedCloser ctx c).Told ctx.file text := by
  unfold unexpectedCloser
  split
  · rename_i c' hbrace
    exact ⟨⟨hc.within hsize (leads_of_eat? hbrace), fun _ hn => nomatch hn⟩, nofun⟩
  · generalize hopened : (c.eatWord? ['<', '/']).getD c = opened
    have hopen : c.Leads opened := hopened ▸ leads_getD fun _ => leads_of_eatWord?
    have hname : c.Leads (scanTagName opened).2 := hopen.trans (leads_scanTagName opened)
    have hclose : (scanTagName opened).2.Leads
        (((scanTagName opened).2.eat? '>').getD (scanTagName opened).2) :=
      leads_getD fun _ => leads_of_eat?
    exact ⟨⟨hc.within hsize (hname.trans hclose), fun _ hn => nomatch hn⟩, nofun⟩

/-! ### Tags -/

theorem readTagBody_blames {read : Reader (List Node)} (hread : Locates ctx.file text read)
    (hforward : Forward read) (hstart : start.In text) (hc : start.Leads c) :
    Blames ctx.file text (readTagBody ctx read start name nameSpan c) := by
  unfold readTagBody
  refine .bind (hread c (hstart.leads hc)) fun (children, closing) hchildren => ?_
  have hclosing : closing.In text := (hstart.leads hc).leads (hforward _ _ _ hchildren)
  have hend : closing.Leads
      (scanTagName ((closing.eatWord? ['<', '/']).getD closing)).2.skipBlank :=
    ((leads_getD fun _ => leads_of_eatWord?).trans (leads_scanTagName _)).trans (leads_skipBlank _)
  have hopen : (start.spanTo ctx.file c).Within ctx.file (Utf8.encode text).length :=
    hstart.within hsize hc
  simp only
  split
  · exact .fail hopen rfl nofun
  · split
    · exact .fail (hclosing.within hsize hend) rfl nofun
    · rename_i c' hsign
      split
      · refine .error ⟨⟨hclosing.within hsize (hend.trans (leads_of_eat? hsign)), ?_⟩, nofun⟩
        exact fun n hn => List.mem_singleton.mp hn ▸ hopen
      · exact .ok _

theorem readTag_blames (hinner : inner.All fun _ => Locates ctx.file text)
    (hforward : inner.Forward) (hstart : start.In text) (hinside : start.Leads inside) :
    Blames ctx.file text (readTag ctx inner inPlural start inside) := by
  have hname : start.Leads (scanTagName inside).2 := hinside.trans (leads_scanTagName inside)
  have hblank := hname.trans (leads_skipBlank _)
  unfold readTag
  simp only
  split
  · exact .fail (hstart.within hsize hname) rfl nofun
  · rename_i read hread
    split
    · exact .ok _
    · split
      · rename_i hsign
        exact readTagBody_blames hsize (hinner.tagBody read hread inPlural)
          (hforward.tagBody read hread inPlural) hstart (hblank.trans (leads_of_eat? hsign))
      · split
        · exact .fail (hstart.within hsize hblank) rfl nofun
        · exact .fail ((hstart.leads hblank).within hsize (leads_takeWhile _ _)) rfl nofun

/-! ### Formatted arguments -/

theorem skeletonOptions_blames {kind : FormatKind} {raw : List Char} {textStart stop : Cursor}
    (hraw : SkeletonAt ctx.file text kind textStart raw stop) :
    Blames ctx.file text (skeletonOptions ctx kind raw textStart.offset) := by
  intro f hf
  obtain ⟨token, reason, hcause, hreported⟩ := skeletonOptions_reported hsize hraw hf
  obtain ⟨kind', raw', c, c', place, -, -, hle, hstart⟩ := hreported.exists_place
  have hstop := hreported.stop_eq
  have hwithin : f.span.Within ctx.file (Utf8.encode text).length := by
    refine ⟨hreported.file_eq, ?_, ?_⟩
    · omega
    · omega
  refine ⟨⟨hwithin, fun n hn => ?_⟩, fun token' reason' h => ?_⟩
  · rw [hcause] at hn
    exact nomatch hn
  · obtain ⟨rfl, -⟩ := Cause.invalidSkeleton.inj (hcause.symm.trans h)
    exact hreported

theorem readStyle_blames {kind : FormatKind} {c₁ : Cursor} (hstart : start.In text)
    (hlead : start.Leads c₁) (hhead : FormatHead ctx.file text kind c₁)
    (hcomma : c₁.skipBlank.Passes [','] c) :
    Blames ctx.file text (readStyle ctx start kind c) := by
  have hc := (hlead.trans c₁.leads_skipBlank).trans hcomma.leads
  have hblank := hc.trans (leads_skipBlank c)
  have htext : c.skipBlank.Leads ((c.skipBlank.eatWord? [':', ':']).getD c.skipBlank) :=
    leads_getD fun _ => leads_of_eatWord?
  have hraw := takeWhile_eq_iff.mp (rfl : ((c.skipBlank.eatWord? [':', ':']).getD
    c.skipBlank).takeWhile (fun ch => ch != '}' && ch != '{') = (_, _))
  have hstop := (hblank.trans htext).trans hraw.passes.leads
  unfold readStyle
  simp only
  split
  · exact .fail ((hstart.leads hstop).within_here hsize) rfl nofun
  · split
    · exact .fail (hstart.within hsize hstop) rfl nofun
    · rename_i closed hclosed
      split
      · split
        · exact .fail ((hstart.leads hblank).within hsize (htext.trans hraw.passes.leads)) rfl nofun
        · exact .ok _
      · rename_i marked hmarked
        refine .bind (skeletonOptions_blames hsize ⟨⟨c₁, c, hhead, hcomma, ?_⟩, hraw, ?_⟩)
          fun _ _ => .ok _
        · rw [hmarked]
          exact eatWord?_eq_some_iff.mp hmarked
        · exact (eat?_eq_some_iff.mp hclosed).head?

theorem readFormat_blames {kind : FormatKind} (hstart : start.In text) (hc : start.Leads c)
    (hhead : FormatHead ctx.file text kind c) :
    Blames ctx.file text (readFormat ctx start kind name nameSpan c) := by
  have hblank := hc.trans (leads_skipBlank c)
  unfold readFormat
  simp only
  split
  · exact .fail (hstart.within hsize hblank) rfl nofun
  · split
    · exact .ok _
    · split
      · exact .fail ((hstart.leads hblank).within_here hsize) rfl nofun
      · rename_i hcomma
        refine .bind ?_ fun _ _ => .ok _
        exact readStyle_blames hsize hstart hc hhead (eat?_eq_some_iff.mp hcomma)

/-! ### Choices -/

theorem readOffset_blames (hc : c.In text) : Blames ctx.file text (readOffset ctx c) := by
  have hstart : c.skipBlank.In text := hc.leads c.leads_skipBlank
  have hdigits := leads_takeWhile Char.isDigit c.skipBlank
  unfold readOffset
  simp only
  split
  · exact .fail ((hstart.leads hdigits).within_here hsize) rfl nofun
  · split
    · exact .ok _
    · exact .fail (hstart.within hsize hdigits) rfl nofun

theorem readKey_blames (hstart : start.In text) :
    Blames ctx.file text (readKey ctx plural start) := by
  have hname := leads_scanName start
  unfold readKey
  split
  · rename_i c hsign
    have heat : start.eat? '=' = some c := (Option.ite_none_right_eq_some.mp hsign).2
    simp only
    split
    · exact .fail (hstart.within hsize ((leads_of_eat? heat).trans (leads_takeWhile _ _))) rfl nofun
    · exact .ok _
  · simp only
    split
    · exact .fail ((hstart.leads hname).within_here hsize) rfl nofun
    · split
      · exact .fail (hstart.within hsize hname) rfl nofun
      · exact .ok _

theorem readBody_blames (hbody : ∀ read ∈ body, Locates ctx.file text read)
    (hforward : ∀ read ∈ body, Forward read) (hstart : start.In text) (hc : start.Leads c) :
    Blames ctx.file text (readBody ctx body start key c) := by
  have hblank := hc.trans (leads_skipBlank c)
  have hopen : c.skipBlank.In text := hstart.leads hblank
  unfold readBody
  simp only
  split
  · split
    · exact .fail (hstart.within hsize hblank) rfl nofun
    · exact .fail (hopen.within_here hsize) rfl nofun
  · rename_i inside hsign
    have hinside : inside.In text := hopen.leads (leads_of_eat? hsign)
    split
    · exact .fail (hopen.within hsize (leads_of_eat? hsign)) rfl nofun
    · rename_i read
      refine .bind (hbody read rfl inside hinside) fun (nodes, stop) hnodes => ?_
      have hstop := hforward read rfl _ _ _ hnodes
      simp only
      split
      · exact .fail (hopen.within hsize ((leads_of_eat? hsign).trans hstop)) rfl nofun
      · split
        · exact .ok _
        · exact .error (unexpectedCloser_told hsize (hinside.leads hstop))

/-- The keys of the cases read so far stand in the text. -/
def KeysWithin (file : UInt32) (text : List Char) (cases : List (Branch Node)) : Prop :=
  ∀ b ∈ cases, b.keySpan.Within file (Utf8.encode text).length

theorem readCase_blames (hbody : ∀ read ∈ body, Locates ctx.file text read)
    (hforward : ∀ read ∈ body, Forward read) {earlier : List (Branch Node)}
    (hearlier : KeysWithin ctx.file text earlier) (hstart : start.In text) (hc : start.Leads c) :
    Blames ctx.file text (readCase ctx plural body start earlier c) := by
  unfold readCase
  refine .bind (readKey_blames hsize (hstart.leads hc)) fun (key, afterKey) hkey => ?_
  have hafter : c.Leads afterKey := (readKey_eq_ok_iff.mp hkey).leads.1
  simp only
  split
  · rename_i first hfirst
    refine .error ⟨⟨(hstart.leads hc).within hsize hafter, ?_⟩, nofun⟩
    intro n hn
    rw [List.mem_singleton.mp hn]
    exact hearlier first (List.mem_of_find?_eq_some hfirst)
  · refine .bind ?_ fun _ _ => .ok _
    exact readBody_blames hsize hbody hforward hstart (hc.trans hafter)

theorem CaseAt.keyWithin {earlier : List (Branch Node)} {c' : Cursor} {b : Branch Node}
    (hc : c.In text) (h : CaseAt ctx.file plural body earlier c b c') :
    b.keySpan.Within ctx.file (Utf8.encode text).length := by
  cases h with
  | intro hkey => exact hc.within hsize hkey.leads.1

/-- The loop that reads cases keeps that the keys of the cases before stand in the text. -/
theorem readCases_blames (hbody : ∀ read ∈ body, Locates ctx.file text read)
    (hforward : ∀ read ∈ body, Forward read) {fuel : Nat} {done : Cases}
    (hdone : KeysWithin ctx.file text done.cases) (hstart : start.In text) (hc : start.Leads c) :
    Blames ctx.file text (readCases ctx plural body start fuel done c) := by
  induction fuel generalizing done c with
  | zero => exact .fail (hstart.within hsize hc) rfl nofun
  | succ fuel ih =>
    have hblank := hc.trans (leads_skipBlank c)
    unfold readCases
    simp only
    split
    · exact .fail (hstart.within hsize hblank) rfl nofun
    · split
      · rename_i hsign
        split
        · exact .fail (hstart.within hsize (hblank.trans (leads_of_eat? hsign))) rfl nofun
        · exact .ok _
      · split
        · rename_i c₁ hword
          have hoffset := hblank.trans
            (leads_of_eatWord? (Option.ite_none_right_eq_some.mp hword).2)
          refine .bind (readOffset_blames hsize (hstart.leads hoffset)) fun (x, c₂) hx => ?_
          exact ih hdone (hoffset.trans (readOffset_eq_ok_iff.mp hx).leads)
        · refine .bind (readCase_blames hsize hbody hforward hdone hstart hblank)
            fun (b, c₁) hb => ?_
          have hcase := readCase_eq_ok_iff.mp hb
          refine ih (List.forall_mem_append.mpr ⟨hdone, List.forall_mem_singleton.mpr ?_⟩)
            (hblank.trans (hcase.leads hforward).1)
          exact hcase.keyWithin hsize (hstart.leads hblank)

theorem readChoice_blames (hinner : inner.All fun _ => Locates ctx.file text)
    (hforward : inner.Forward) (hstart : start.In text) (hc : start.Leads c) :
    Blames ctx.file text (readChoice ctx inner inPlural plural start c) := by
  have hblank := hc.trans (leads_skipBlank c)
  unfold readChoice
  simp only
  split
  · exact .fail (hstart.within hsize hblank) rfl nofun
  · split
    · exact .fail ((hstart.leads hblank).within_here hsize) rfl nofun
    · rename_i hcomma
      exact readCases_blames hsize (hinner.bodyReader _) (hforward.bodyReader _)
        (fun _ hb => absurd hb List.not_mem_nil) hstart (hblank.trans (leads_of_eat? hcomma))

/-! ### Arguments -/

theorem readTyped_blames (hinner : inner.All fun _ => Locates ctx.file text)
    (hforward : inner.Forward) {type : String} {typeSpan : Span} {c₀ : Cursor}
    (hspan : typeSpan.Within ctx.file (Utf8.encode text).length) (hstart : start.In text)
    (hnamed : NamedAt ctx.file start name nameSpan c₀) (htype : TypeAt c₀ type c) :
    Blames ctx.file text (readTyped ctx inner inPlural start name nameSpan type typeSpan c) := by
  have hc : start.Leads c := hnamed.leads.trans htype.leads
  have hhead {kind : FormatKind} (hkind : type = kind.name) : FormatHead ctx.file text kind c :=
    ⟨start, name, nameSpan, c₀, hstart, hnamed, hkind ▸ htype⟩
  have hchoice {β : Type} (plural : Bool) (f : Read Cases → Except Fault β)
      (hf : ∀ cs, Blames ctx.file text (f cs)) :
      Blames ctx.file text (readChoice ctx inner inPlural plural start c >>= f) :=
    .bind (readChoice_blames hsize hinner hforward hstart hc) fun cs _ => hf cs
  unfold readTyped
  split
  · exact readFormat_blames hsize hstart hc (hhead rfl)
  · exact readFormat_blames hsize hstart hc (hhead rfl)
  · exact readFormat_blames hsize hstart hc (hhead rfl)
  · exact hchoice false _ fun _ => .ok _
  · exact hchoice true _ fun _ => .ok _
  · exact hchoice true _ fun _ => .ok _
  · exact .fail hspan rfl nofun

theorem readNamed_blames (hinner : inner.All fun _ => Locates ctx.file text)
    (hforward : inner.Forward) (hstart : start.In text)
    (hnamed : NamedAt ctx.file start name nameSpan c) :
    Blames ctx.file text (readNamed ctx inner inPlural start name nameSpan c) := by
  have hblank := hnamed.leads.trans (leads_skipBlank c)
  unfold readNamed
  simp only
  split
  · exact .fail (hstart.within hsize hblank) rfl nofun
  · split
    · exact .ok _
    · split
      · exact .fail ((hstart.leads hblank).within_here hsize) rfl nofun
      · rename_i c₁ hcomma
        have htypeStart := (hblank.trans (leads_of_eat? hcomma)).trans (leads_skipBlank c₁)
        have htypeStop := htypeStart.trans (leads_scanName _)
        split
        · split
          · exact .fail (hstart.within hsize htypeStop) rfl nofun
          · exact .fail ((hstart.leads htypeStop).within_here hsize) rfl nofun
        · rename_i hne
          have htype : TypeAt c (scanName c₁.skipBlank).1 (scanName c₁.skipBlank).2 :=
            ⟨c₁, eat?_eq_some_iff.mp hcomma, hne, scanName_eq_iff.mp rfl⟩
          exact readTyped_blames hsize hinner hforward
            ((hstart.leads htypeStart).within hsize (leads_scanName _)) hstart hnamed htype

theorem readArgument_blames (hinner : inner.All fun _ => Locates ctx.file text)
    (hforward : inner.Forward) (hstart : start.In text) (hopen : start.Passes ['{'] inside) :
    Blames ctx.file text (readArgument ctx inner inPlural start inside) := by
  have hinside := hopen.leads
  have hblank := hinside.trans (leads_skipBlank inside)
  have hname := hblank.trans (leads_scanName _)
  unfold readArgument
  simp only
  split
  · exact .fail (hstart.within hsize hinside) rfl nofun
  · split
    · exact .fail (hstart.within hsize hblank) rfl nofun
    · split
      · rename_i hsign
        exact .fail (hstart.within hsize (hblank.trans (leads_of_eat? hsign))) rfl nofun
      · split
        · exact .fail ((hstart.leads hname).within_here hsize) rfl nofun
        · rename_i hne
          have hnamed : NamedAt ctx.file start (scanName inside.skipBlank).1
              (inside.skipBlank.spanTo ctx.file (scanName inside.skipBlank).2)
              (scanName inside.skipBlank).2 :=
            ⟨inside, hopen, ⟨hne, scanName_eq_iff.mp rfl⟩, rfl⟩
          exact readNamed_blames hsize hinner hforward hstart hnamed

/-! ### Messages -/

theorem readElement_blames (hinner : inner.All fun _ => Locates ctx.file text)
    (hforward : inner.Forward) : Locates ctx.file text (readElement ctx inner inPlural) := by
  intro c hc
  have hliteral : Blames ctx.file text (readLiteral ctx inPlural c) := .ok _
  unfold readElement
  split
  · rename_i r hrest
    exact readArgument_blames hsize hinner hforward hc (passes_skip hrest)
  · rename_i r hrest
    split
    · exact readTag_blames hsize hinner hforward hc (passes_skip hrest).leads
    · exact hliteral
  · split
    · exact .ok _
    · exact hliteral
  · exact hliteral

theorem readSiblings_blames (hinner : inner.All fun _ => Locates ctx.file text)
    (hforward : inner.Forward) (fuel : Nat) :
    Locates ctx.file text (readSiblings (readElement ctx inner inPlural) fuel) := by
  induction fuel with
  | zero => exact fun c _ => .ok _
  | succ fuel ih =>
    intro c hc
    by_cases hend : AtEnd c
    · rw [readSiblings_of_atEnd hend]
      exact .ok _
    · rw [readSiblings_of_not_atEnd hend]
      refine .bind (readElement_blames hsize hinner hforward c hc) fun (n, c₁) hn => ?_
      have helement := elementAt_of_readElement hforward hend hn
      exact .bind (ih c₁ (hc.leads (helement.leads hforward).1)) fun _ _ => .ok _

theorem readNodes_blames (budget : Nat) :
    ∀ inPlural, Locates ctx.file text (readNodes ctx budget inPlural) := by
  refine readNodes_induction (P := fun _ => Locates ctx.file text) ?_ budget
  intro budget hinner inPlural c hc
  rw [readNodes_eq_readSiblings]
  exact readSiblings_blames hsize hinner (forward_innerAt ctx budget) _ c hc

end Readers

/-! ### Loops -/

theorem bind_congr_of_ok {α β : Type} {x : Except Fault α} {f g : α → Except Fault β}
    (h : ∀ a, x = .ok a → f a = g a) : x >>= f = x >>= g := by
  cases x with
  | ok a => exact h a rfl
  | error _ => rfl

section Loops

variable {ctx : Context} {inner : Inner} {inPlural plural : Bool} {start c : Cursor}
variable {body : Option (Reader (List Node))}

/-- The loop that reads siblings does the same however long it may run, if it may run once a
character: each element takes one at least. -/
theorem readSiblings_fuel (hforward : inner.Forward) {fuel fuel' : Nat}
    (hfuel : c.rest.length ≤ fuel) (hfuel' : c.rest.length ≤ fuel') :
    readSiblings (readElement ctx inner inPlural) fuel c =
      readSiblings (readElement ctx inner inPlural) fuel' c := by
  induction fuel generalizing c fuel' with
  | zero =>
    have hend : AtEnd c := .inl (List.eq_nil_of_length_eq_zero (Nat.le_zero.mp hfuel))
    rw [readSiblings_of_atEnd hend, readSiblings_of_atEnd hend]
  | succ fuel ih =>
    by_cases hend : AtEnd c
    · rw [readSiblings_of_atEnd hend, readSiblings_of_atEnd hend]
    · have hpos : 0 < c.rest.length := List.length_pos_iff.mpr fun hnil => hend (.inl hnil)
      obtain ⟨fuel', rfl⟩ : ∃ n, fuel' = n + 1 := ⟨fuel' - 1, by omega⟩
      rw [readSiblings_of_not_atEnd hend, readSiblings_of_not_atEnd hend]
      refine bind_congr_of_ok fun (n, c₁) hn => ?_
      have hless := ((elementAt_of_readElement hforward hend hn).leads hforward).2
      simp only [ih (by omega) (by omega : c₁.rest.length ≤ fuel')]

/-- The loop that reads cases does the same however long it may run, if it may run once a character
and once more: offsets and cases take one at least. -/
theorem readCases_fuel (hforward : ∀ read ∈ body, Forward read) {fuel fuel' : Nat} {done : Cases}
    (hfuel : c.rest.length < fuel) (hfuel' : c.rest.length < fuel') :
    readCases ctx plural body start fuel done c = readCases ctx plural body start fuel' done c := by
  induction fuel generalizing done c fuel' with
  | zero => exact absurd hfuel (Nat.not_lt_zero _)
  | succ fuel ih =>
    obtain ⟨fuel', rfl⟩ : ∃ n, fuel' = n + 1 := ⟨fuel' - 1, by omega⟩
    have hblank := (leads_skipBlank c).length_le
    rw [readCases, readCases]
    simp only
    split
    · rfl
    · split
      · rfl
      · split
        · rename_i c₁ hword
          have hpasses := eatWord?_eq_some_iff.mp (Option.ite_none_right_eq_some.mp hword).2
          have hlength := hpasses.length_rest
          have hseven : "offset:".toList.length = 7 := rfl
          refine bind_congr_of_ok fun r hx => ?_
          obtain ⟨x, c₂⟩ := r
          have hless := (readOffset_eq_ok_iff.mp hx).leads.length_le
          exact ih (c := c₂) (by omega) (by omega)
        · refine bind_congr_of_ok fun r hb => ?_
          obtain ⟨b, c₁⟩ := r
          have hless := ((readCase_eq_ok_iff.mp hb).leads hforward).2
          exact ih (c := c₁) (by omega) (by omega)

end Loops

/-- Reading steps forward in the text only, and none of its loops stops for want of fuel: with more
fuel than there are characters left they do what they do with that much. -/
structure Bounded (ctx : Context) : Prop where
  forward : ∀ budget inPlural, Forward (readNodes ctx budget inPlural)
  siblings : ∀ budget inPlural fuel (c : Cursor), c.rest.length ≤ fuel →
    readSiblings (readElement ctx (innerAt ctx budget) inPlural) fuel c =
      readNodes ctx budget inPlural c
  cases : ∀ budget inPlural plural start fuel done (c : Cursor), c.rest.length < fuel →
    readCases ctx plural ((innerAt ctx budget).bodyReader inPlural) start fuel done c =
      readCases ctx plural ((innerAt ctx budget).bodyReader inPlural) start (c.rest.length + 1)
        done c

theorem bounded (ctx : Context) : Bounded ctx where
  forward := forward_readNodes ctx
  siblings budget inPlural fuel c hfuel := by
    rw [readNodes_eq_readSiblings]
    exact readSiblings_fuel (forward_innerAt ctx budget) hfuel (Nat.le_refl _)
  cases budget inPlural plural start fuel done c hfuel :=
    readCases_fuel ((forward_innerAt ctx budget).bodyReader inPlural) hfuel (Nat.lt_succ_self _)

/-! ### Outcomes -/

theorem parseChars_blames {file : UInt32} {limit : Nat} {text : List Char}
    (hsize : (Utf8.encode text).length < 2 ^ 32) :
    Blames file text (parseChars file limit text) := by
  have hstart : (⟨0, text⟩ : Cursor).In text := .refl _
  have hread : Blames file text (readNodes ⟨file, limit⟩ limit false ⟨0, text⟩) :=
    readNodes_blames hsize limit false _ hstart
  refine .bind hread fun (ns, c) hns => ?_
  simp only
  split
  · exact .ok _
  · have hc : c.In text := hstart.leads (forward_readNodes _ _ _ _ _ _ hns)
    exact .error (@unexpectedCloser_told ⟨file, limit⟩ _ _ hsize hc)

theorem parse_told {file : UInt32} {limit : Nat} {content : Bytes} {f : Fault}
    (h : parse file limit content = .error (.fault f)) :
    (∃ text, content = Utf8.encode text ∧ f.Told file text) ∨
      f = ⟨.invalidEncoding, Span.between file 0 content.length⟩ := by
  have hsize := length_lt_of_fault h
  rw [parse_of_length_lt hsize] at h
  split at h
  · rename_i text htext
    obtain rfl := Utf8.encode_of_decode? htext
    cases hchars : parseChars file limit text with
    | ok ns =>
      rw [hchars] at h
      cases h
    | error g =>
      rw [hchars] at h
      obtain rfl : g = f := Refusal.fault.inj (Except.error.inj h)
      exact .inl ⟨text, rfl, parseChars_blames hsize g hchars⟩
  · exact .inr (Refusal.fault.inj (Except.error.inj h)).symm

theorem parse_placed {file : UInt32} {limit : Nat} {content : Bytes} {f : Fault}
    (h : parse file limit content = .error (.fault f)) : f.Placed file content.length := by
  rcases parse_told h with ⟨text, rfl, htold⟩ | rfl
  · exact htold.placed
  · exact ⟨within_between (length_lt_of_fault h) (Nat.zero_le _) (Nat.le_refl _),
      fun _ hn => absurd hn List.not_mem_nil⟩

/-- What is known after reading: the tree, if there is one, and the diagnostics that a listener to
faults heard of. -/
structure Outcome where
  nodes : Option (List Node)
  heard : List Diagnostic

/-- Reads a text for someone who may listen to its faults. -/
def outcome (file : UInt32) (limit : Int) (listener : Option Reporting) (content : Bytes) :
    Outcome :=
  let parsed := parse file (effectiveLimit limit) content
  ⟨parsed.toOption, (listener.map fun r => r.reported parsed).getD []⟩

/-- A listener hears while fewer faults came before than it bears; without a maximum, always. -/
def Hears (listener : Option Reporting) : Prop :=
  ∃ r ∈ listener, r.maxErrors = 0 ∨ r.currentErrors < r.maxErrors

instance (listener : Option Reporting) : Decidable (Hears listener) :=
  match listener with
  | none => isFalse fun ⟨_, h, _⟩ => nomatch h
  | some r => decidable_of_iff (r.maxErrors = 0 ∨ r.currentErrors < r.maxErrors)
    ⟨fun h => ⟨r, rfl, h⟩, fun ⟨_, hr, h⟩ => Option.some.inj hr ▸ h⟩

theorem Reporting.enough_eq_false_iff {r : Reporting} :
    r.enough = false ↔ r.maxErrors = 0 ∨ r.currentErrors < r.maxErrors := by
  simp only [Reporting.enough, Bool.and_eq_false_iff, decide_eq_false_iff_not, not_not, not_le,
    ge_iff_le]

theorem outcome_of_ok {file : UInt32} {limit : Int} {content : Bytes} {ns : List Node}
    (h : parse file (effectiveLimit limit) content = .ok ns) (listener : Option Reporting) :
    outcome file limit listener content = ⟨some ns, []⟩ := by
  unfold outcome
  rw [h]
  cases listener <;> rfl

theorem outcome_of_overflow {file : UInt32} {limit : Int} {content : Bytes}
    (h : parse file (effectiveLimit limit) content = .error .overflow)
    (listener : Option Reporting) : outcome file limit listener content = ⟨none, []⟩ := by
  unfold outcome
  rw [h]
  cases listener <;> rfl

theorem outcome_of_fault {file : UInt32} {limit : Int} {content : Bytes} {f : Fault}
    (h : parse file (effectiveLimit limit) content = .error (.fault f)) (listener : Option Reporting) :
    outcome file limit listener content =
      ⟨none, if Hears listener then [f.diagnostic] else []⟩ := by
  unfold outcome
  rw [h]
  cases listener with
  | none => rfl
  | some r =>
    have hhears : Hears (some r) ↔ r.enough = false := by
      rw [Reporting.enough_eq_false_iff]
      exact ⟨fun ⟨_, hr, h⟩ => Option.some.inj hr ▸ h, fun h => ⟨r, rfl, h⟩⟩
    simp only [hhears, Option.map_some, Option.getD_some, Reporting.reported]
    cases r.enough <;> rfl

/-- Reading a text of less than 2^31 bytes ends with a tree and no diagnostic, or with no tree and
one diagnostic, an error whose span and notes are places of the text. Which of the two, and the
tree, is the same whoever listens; whoever hears, hears just of that error. -/
theorem reading_ends (file : UInt32) (limit : Int) (content : Bytes)
    (hsize : content.length < 2 ^ 31) :
    Bounded ⟨file, effectiveLimit limit⟩ ∧
      ((∃ ns, ∀ listener, outcome file limit listener content = ⟨some ns, []⟩) ∨
        ∃ d : Diagnostic, d.severity = .error ∧ d.primary.Within file content.length ∧
          (∀ n ∈ d.notes, n.span.Within file content.length) ∧
          ∀ listener, outcome file limit listener content =
            ⟨none, if Hears listener then [d] else []⟩) := by
  refine ⟨bounded _, ?_⟩
  cases hparse : parse file (effectiveLimit limit) content with
  | ok ns => exact .inl ⟨ns, outcome_of_ok hparse⟩
  | error refusal =>
    cases refusal with
    | overflow =>
      have hlong := parse_eq_overflow_iff.mp hparse
      omega
    | fault f =>
      have hplaced := parse_placed hparse
      exact .inr ⟨f.diagnostic, rfl, hplaced.span, hplaced.notes, outcome_of_fault hparse⟩

/-- A selector that stands twice, behind a character of two bytes. -/
def repeatedSelector : Bytes :=
  Utf8.encode "é{n, plural, =1 {é} =1 {b} other {c}}".toList

theorem reading_ends_repeatedSelector : repeatedSelector.length < 2 ^ 31 ∧
    ∃ d : Diagnostic, d.severity = .error ∧ d.primary.Within 1 repeatedSelector.length ∧
      d.notes.length = 1 ∧ (∀ n ∈ d.notes, n.span.Within 1 repeatedSelector.length) ∧
      outcome 1 0 (some ⟨2, 1⟩) repeatedSelector = ⟨none, [d]⟩ ∧
      outcome 1 0 (some ⟨1, 1⟩) repeatedSelector = ⟨none, []⟩ := by
  have hsize : repeatedSelector.length < 2 ^ 31 := by decide +kernel
  have hnodes : (outcome 1 0 none repeatedSelector).nodes.isNone = true := by decide +kernel
  have hnotes : (outcome 1 0 (some ⟨2, 1⟩) repeatedSelector).heard.map (·.notes.length) = [1] := by
    decide +kernel
  refine ⟨hsize, ?_⟩
  obtain ⟨-, ⟨ns, h⟩ | ⟨d, hseverity, hprimary, hplaced, h⟩⟩ :=
    reading_ends 1 0 repeatedSelector hsize
  · rw [h none] at hnodes
    exact nomatch hnodes
  · have hheard := h (some ⟨2, 1⟩)
    have hdeaf := h (some ⟨1, 1⟩)
    rw [if_pos (by decide)] at hheard
    rw [if_neg (by decide)] at hdeaf
    rw [hheard] at hnotes
    exact ⟨d, hseverity, hprimary, List.head_eq_of_cons_eq hnotes, hplaced, hheard, hdeaf⟩

/-! ### Tokens of skeletons -/

/-- A diagnostic of a fault in a skeleton names a token that stands in the skeleton of a formatted
argument. Its span is as long as the token and starts before it by the shift. This is none in number
skeletons and where only plain blanks stand in front; then the span covers the token. -/
def NamesToken (file : UInt32) (content : Bytes) (d : Diagnostic) : Prop :=
  ∃ token reason : String, d.message = s!"invalid skeleton token {Text.quote token}: {reason}" ∧
    ∃ text kind raw c c' place, content = Utf8.encode text ∧ SkeletonAt file text kind c raw c' ∧
      Skeleton.StandsAt raw place token.toList ∧ d.primary.file = file ∧
      d.primary.start.toNat + shift kind raw = c.offset + place ∧
      d.primary.stop.toNat = d.primary.start.toNat + (Utf8.encode token.toList).length ∧
      (d.primary.start.toNat = c.offset + place ↔
        kind = .number ∨ ∀ x ∈ raw.takeWhile Text.isBlank, isPlainBlank x = true) ∧
      (d.primary.start.toNat = c.offset + place →
        content.slice d.primary.start.toNat d.primary.stop.toNat = Utf8.encode token.toList)

theorem Fault.Told.namesToken {file : UInt32} {text : List Char} {f : Fault}
    (h : f.Told file text) (hcode : f.diagnostic.code = .invalidSkeleton) :
    NamesToken file (Utf8.encode text) f.diagnostic := by
  obtain ⟨cause, span⟩ := f
  -- no other cause has this code
  obtain ⟨token, reason, rfl⟩ : ∃ token reason, cause = .invalidSkeleton token reason := by
    cases cause with
    | invalidSkeleton token reason => exact ⟨token, reason, rfl⟩
    | _ => exact nomatch hcode
  have hreported := h.reported token reason rfl
  obtain ⟨kind, raw, c, c', place, hskeleton, hstands, hle, hstart⟩ := hreported.exists_place
  have hstop := hreported.stop_eq
  refine ⟨token, reason, rfl, text, kind, raw, c, c', place, rfl, hskeleton, hstands,
    hreported.file_eq, hstart, ?_, ?_, fun hplace => ?_⟩
  · rw [Skeleton.length_encode]
    exact hstop
  · rw [← shift_eq_zero_iff]
    have hstart' : span.start.toNat + shift kind raw = c.offset + place := hstart
    change span.start.toNat = c.offset + place ↔ _
    omega
  · change (Utf8.encode text).slice span.start.toNat span.stop.toNat = _
    have hplace' : span.start.toNat = c.offset + place := hplace
    rw [hstop, hplace']
    exact hskeleton.slice hstands

/-- Whoever hears of a fault in a skeleton hears a token of the skeleton and where it is; but in date
and time skeletons behind white space that is no plain blank, the place is before the token. -/
theorem skeletonFault_namesToken (file : UInt32) (limit : Int) (listener : Option Reporting)
    (content : Bytes) (d : Diagnostic)
    (hd : d ∈ (outcome file limit listener content).heard) (hcode : d.code = .invalidSkeleton) :
    NamesToken file content d := by
  cases hparse : parse file (effectiveLimit limit) content with
  | ok ns =>
    rw [outcome_of_ok hparse] at hd
    exact absurd hd List.not_mem_nil
  | error refusal =>
    cases refusal with
    | overflow =>
      rw [outcome_of_overflow hparse] at hd
      exact absurd hd List.not_mem_nil
    | fault f =>
      obtain rfl : d = f.diagnostic := by
        rw [outcome_of_fault hparse] at hd
        split at hd
        · exact List.mem_singleton.mp hd
        · exact absurd hd List.not_mem_nil
      rcases parse_told hparse with ⟨text, rfl, htold⟩ | rfl
      · exact htold.namesToken hcode
      · exact nomatch hcode

/-- A skeleton behind a space, and the same one behind a line tabulation. -/
def spacedSkeleton (blank : Char) : Bytes :=
  Utf8.encode ("\x7ba, date, ::".toList ++ blank :: "yMw\x7d".toList)

def spacedMessage : String :=
  "invalid skeleton token \"w\": field is not supported by Intl.DateTimeFormat"

/-- Behind the space the span covers the token, behind the line tabulation the character before. -/
theorem skeletonFault_namesToken_spacedSkeleton :
    (∃ d, (outcome 0 0 (some ⟨0, 0⟩) (spacedSkeleton ' ')).heard = [d] ∧
      d.message = spacedMessage ∧ NamesToken 0 (spacedSkeleton ' ') d ∧
      (spacedSkeleton ' ').slice d.primary.start.toNat d.primary.stop.toNat =
        Utf8.encode ['w']) ∧
    ∃ d, (outcome 0 0 (some ⟨0, 0⟩) (spacedSkeleton '\x0b')).heard = [d] ∧
      d.message = spacedMessage ∧ NamesToken 0 (spacedSkeleton '\x0b') d ∧
      (spacedSkeleton '\x0b').slice d.primary.start.toNat d.primary.stop.toNat =
        Utf8.encode ['M'] := by
  -- one computation for both texts, which differ in the blank only
  have hcomputed : ∀ p ∈ [(' ', 'w'), ('\x0b', 'M')],
      (outcome 0 0 (some ⟨0, 0⟩) (spacedSkeleton p.1)).heard.map (·.code) = [.invalidSkeleton] ∧
      (outcome 0 0 (some ⟨0, 0⟩) (spacedSkeleton p.1)).heard.all (fun d =>
        d.message == spacedMessage &&
          (spacedSkeleton p.1).slice d.primary.start.toNat d.primary.stop.toNat ==
            Utf8.encode [p.2]) = true := by
    decide +kernel
  have hspaced (p : Char × Char) (hp : p ∈ [(' ', 'w'), ('\x0b', 'M')]) :
      ∃ d, (outcome 0 0 (some ⟨0, 0⟩) (spacedSkeleton p.1)).heard = [d] ∧
        d.message = spacedMessage ∧ NamesToken 0 (spacedSkeleton p.1) d ∧
        (spacedSkeleton p.1).slice d.primary.start.toNat d.primary.stop.toNat =
          Utf8.encode [p.2] := by
    obtain ⟨hone, hcovered⟩ := hcomputed p hp
    obtain ⟨d, hd, hcode⟩ := List.map_eq_singleton_iff.mp hone
    have hnames : NamesToken 0 (spacedSkeleton p.1) d := by
      apply skeletonFault_namesToken 0 0 (some ⟨0, 0⟩) (spacedSkeleton p.1)
      · rw [hd]
        exact List.mem_singleton_self d
      · exact hcode
    rw [hd, List.all_cons, List.all_nil, Bool.and_true, Bool.and_eq_true, beq_iff_eq,
      beq_iff_eq] at hcovered
    exact ⟨d, hd, hcovered.1, hnames, hcovered.2⟩
  exact ⟨hspaced (' ', 'w') (by decide), hspaced ('\x0b', 'M') (by decide)⟩

end Message

end Phrasebook
