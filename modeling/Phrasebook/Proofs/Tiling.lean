import Phrasebook.Message.Nesting
import Phrasebook.Proofs.Grammar
import Phrasebook.Proofs.Trees

/-!
Spans tile the text. The spans of siblings follow one another without a gap, from the first byte of
what encloses them to the last, and every span passes the span rules.
-/
namespace Phrasebook

open Message Cursor

/-! ### Regions -/

/-- The spans of siblings follow one another from one byte to another; none is empty. -/
inductive Tiles (file : UInt32) : Nat → List Node → Nat → Prop where
  | nil {start : Nat} : Tiles file start [] start
  | cons {start next stop : Nat} {n : Node} {ns : List Node} : start < next →
      n.span = Span.between file start next → Tiles file next ns stop →
      Tiles file start (n :: ns) stop

theorem Tiles.le {file : UInt32} {start stop : Nat} {ns : List Node}
    (h : Tiles file start ns stop) : start ≤ stop := by
  induction h with
  | nil => exact Nat.le_refl _
  | cons hlt _ _ ih => omega

/-- There are siblings just where there is something to tile. -/
theorem Tiles.eq_nil_iff {file : UInt32} {start stop : Nat} {ns : List Node}
    (h : Tiles file start ns stop) : ns = [] ↔ start = stop := by
  cases h with
  | nil => exact ⟨fun _ => rfl, fun _ => rfl⟩
  | cons hlt _ hrest =>
    have hle := hrest.le
    constructor
    · exact fun hnil => nomatch hnil
    · intro heq
      omega

/-- Siblings fill a region of the text. -/
structure Fills (file : UInt32) (start : Nat) (ns : List Node) (stop : Nat) : Prop where
  tiles : Tiles file start ns stop
  empty : ns = [] ↔ start = stop

theorem Tiles.fills {file : UInt32} {start stop : Nat} {ns : List Node}
    (h : Tiles file start ns stop) : Fills file start ns stop :=
  ⟨h, h.eq_nil_iff⟩

def IsBlankRun (cs : List Char) : Prop :=
  ∀ x ∈ cs, Text.isPatternBlank x = true

/-- The body of a case fills what stands between its braces. -/
def Branch.Tiled (file : UInt32) (content : Bytes) (b : Branch Node) : Prop :=
  ∃ start keyStop inside outside stop blanks, b.keySpan = Span.between file start keyStop ∧
    b.span = Span.between file start stop ∧ stop ≤ content.length ∧
    content.slice start keyStop = Utf8.encode b.key.toList ∧
    content.slice keyStop inside = Utf8.encode (blanks ++ ['{']) ∧ IsBlankRun blanks ∧
    Fills file inside b.body outside ∧ content.slice outside stop = Utf8.encode ['}']

/-- The children of a tag fill what stands between the opening and the closing tag. -/
def TagTiled (file : UInt32) (content : Bytes) (span : Span) (name : String)
    (children : List Node) : Prop :=
  ∃ start inside outside stop blanks blanks', span = Span.between file start stop ∧
    stop ≤ content.length ∧
    content.slice start inside = Utf8.encode ('<' :: name.toList ++ blanks ++ ['>']) ∧
    IsBlankRun blanks ∧ Fills file inside children outside ∧
    content.slice outside stop = Utf8.encode ('<' :: '/' :: name.toList ++ blanks' ++ ['>']) ∧
    IsBlankRun blanks'

/-- What stands right below an element fills its regions. -/
def Node.Tiled (file : UInt32) (content : Bytes) : Node → Prop
  | .select _ _ _ cases | .plural _ _ _ _ _ cases => ∀ b ∈ cases, b.Tiled file content
  | .tag span name _ false children => TagTiled file content span name children
  | _ => True

namespace Message

/-! ### Cursors in a text -/

/-- The cursor stands in a text. -/
def Cursor.In (text : List Char) (c : Cursor) : Prop :=
  (⟨0, text⟩ : Cursor).Leads c

theorem Cursor.In.leads {text : List Char} {c c' : Cursor} (h : c.In text) (h' : c.Leads c') :
    c'.In text :=
  h.trans h'

theorem Cursor.In.offset_le {text : List Char} {c : Cursor} (h : c.In text) :
    c.offset ≤ (Utf8.encode text).length := by
  obtain ⟨before, hbefore⟩ := h
  have hrest : text = before ++ c.rest := hbefore.rest
  have hoffset : c.offset = 0 + Skeleton.byteLength before := hbefore.offset
  rw [Skeleton.length_encode, hrest, Skeleton.byteLength_append]
  omega

/-- The bytes between two cursors are those of the run between them. -/
theorem Cursor.In.slice {text run : List Char} {c c' : Cursor} (h : c.In text)
    (hrun : c.Passes run c') :
    (Utf8.encode text).slice c.offset c'.offset = Utf8.encode run := by
  obtain ⟨before, hbefore⟩ := h
  have htext : text = before ++ (run ++ c'.rest) := by
    rw [← hrun.rest]
    exact hbefore.rest
  have hstart : c.offset = (Utf8.encode before).length := by
    rw [Skeleton.length_encode, hbefore.offset]
    exact Nat.zero_add _
  have hlength : c'.offset - c.offset = (Utf8.encode run).length := by
    rw [hrun.offset, Skeleton.length_encode]
    omega
  rw [Bytes.slice, hlength, hstart, htext, Utf8.encode_append, Utf8.encode_append, List.drop_left,
    List.take_left]

/-! ### The span rules -/

/-- A span that encloses a region. -/
structure Encloses (parent : Span) (start stop : Nat) : Prop where
  start_le : parent.start.toNat ≤ start
  le_stop : stop ≤ parent.stop.toNat

section Rules

variable {file : UInt32} {text : List Char} {parent : Span}

theorem toNat_toUInt32 {n : Nat} (h : n < 2 ^ 32) : n.toUInt32.toNat = n := by
  rw [Nat.toUInt32_eq, UInt32.toNat_ofNat']
  exact Nat.mod_eq_of_lt h

theorem encloses_between {a b start stop : Nat} (hb : b < 2 ^ 32) (ha : a ≤ start)
    (hstart : start ≤ stop) (hstop : stop ≤ b) : Encloses (Span.between file a b) start stop := by
  constructor
  · change a.toUInt32.toNat ≤ start
    rw [toNat_toUInt32 (by omega)]
    exact ha
  · change stop ≤ b.toUInt32.toNat
    rw [toNat_toUInt32 hb]
    exact hstop

theorem Encloses.mono {a b start stop : Nat} (h : Encloses parent a b) (ha : a ≤ start)
    (hb : stop ≤ b) : Encloses parent start stop :=
  ⟨Nat.le_trans h.start_le ha, Nat.le_trans hb h.le_stop⟩

theorem checkSpan_between {what : String} {start stop : Nat} (hlt : start < stop)
    (hstop : stop < 2 ^ 32) (h : Encloses parent start stop) :
    checkSpan file what (Span.between file start stop) parent = .ok () := by
  have hstart' : (Span.between file start stop).start.toNat = start :=
    toNat_toUInt32 (Nat.lt_trans hlt hstop)
  have hstop' : (Span.between file start stop).stop.toNat = stop := toNat_toUInt32 hstop
  have hproper : ¬(Span.between file start stop).stop ≤ (Span.between file start stop).start := by
    rw [UInt32.le_iff_toNat_le, hstart', hstop']
    omega
  have hleft : ¬(Span.between file start stop).start < parent.start := by
    rw [UInt32.lt_iff_toNat_lt, hstart']
    have hle := h.start_le
    omega
  have hright : ¬(Span.between file start stop).stop > parent.stop := by
    rw [gt_iff_lt, UInt32.lt_iff_toNat_lt, hstop']
    have hle := h.le_stop
    omega
  rw [checkSpan, if_neg hproper, if_neg (fun hne => hne rfl)]
  simp only [hleft, hright, decide_false, Bool.or_self, Bool.false_eq_true, if_false]

theorem checkNode_of_below {n : Node} {start stop : Nat} (hn : n ≠ .hole)
    (hspan : n.span = Span.between file start stop) (hlt : start < stop) (hstop : stop < 2 ^ 32)
    (h : Encloses parent start stop) (hbelow : checkBelow file n = .ok ()) :
    checkNode file parent n = .ok () := by
  rw [checkNode]
  · rw [hspan, checkSpan_between hlt hstop h]
    exact hbelow
  · exact hn

theorem checkNodes_of_tiles {ns : List Node} {start stop : Nat} (h : Tiles file start ns stop)
    (hstop : stop < 2 ^ 32) (hparent : Encloses parent start stop)
    (hbelow : ∀ n ∈ ns, n ≠ .hole ∧ checkBelow file n = .ok ()) :
    checkNodes file parent ns = .ok () := by
  induction h with
  | nil => rw [checkNodes]
  | cons hlt hspan hrest ih =>
    obtain ⟨⟨hhole, hnode⟩, hnodes⟩ := List.forall_mem_cons.mp hbelow
    have hle := hrest.le
    have hfirst := checkNode_of_below hhole hspan hlt (by omega)
      (hparent.mono (Nat.le_refl _) hle) hnode
    rw [checkNodes, hfirst]
    exact ih hstop (hparent.mono (Nat.le_of_lt hlt) (Nat.le_refl _)) hnodes

theorem checkCases_of_forall {bs : List (Branch Node)}
    (h : ∀ b ∈ bs, checkCase file parent b = .ok ()) : checkCases file parent bs = .ok () := by
  induction bs with
  | nil => rw [checkCases]
  | cons b bs ih =>
    obtain ⟨hfirst, hrest⟩ := List.forall_mem_cons.mp h
    rw [checkCases, hfirst]
    exact ih hrest

end Rules

/-! ### Elements -/

/-- What is known of an element that was read between two cursors. -/
structure Placed (file : UInt32) (text : List Char) (c : Cursor) (n : Node) (c' : Cursor) :
    Prop where
  span : n.span = c.spanTo file c'
  proper : n ≠ .hole
  below : checkBelow file n = .ok ()
  all : n.All (Node.Tiled file (Utf8.encode text))

/-- What a reader of bodies gives tiles what it was read from. -/
def Tiling (file : UInt32) (text : List Char) (read : Reader (List Node)) : Prop :=
  ∀ c ns c', c.In text → read c = .ok (ns, c') → Tiles file c.offset ns c'.offset ∧
    ∀ n ∈ ns, n ≠ .hole ∧ checkBelow file n = .ok () ∧
      n.All (Node.Tiled file (Utf8.encode text))

section Elements

variable {file : UInt32} {text : List Char} {c c' : Cursor}

/-- Every place in a short text has a number of 32 bits. -/
theorem Cursor.In.offset_lt (hsize : (Utf8.encode text).length < 2 ^ 32) (h : c.In text) :
    c.offset < 2 ^ 32 := by
  have hle := h.offset_le
  omega

theorem KeyAt.passes {plural : Bool} {key : String} (h : KeyAt plural c key c') :
    c.Passes key.toList c' := by
  cases h with
  | exact _ hsign hdigits =>
    rw [String.toList_ofList]
    exact hsign.trans hdigits.passes
  | name hname => exact hname.run.passes

/-- What is known of a case that was read between two cursors, in a choice with a span. -/
structure CasePlaced (file : UInt32) (text : List Char) (parent : Span) (b : Branch Node) :
    Prop where
  check : checkCase file parent b = .ok ()
  tiled : b.Tiled file (Utf8.encode text)
  all : ∀ n ∈ b.body, n.All (Node.Tiled file (Utf8.encode text))

theorem CaseAt.placed {plural : Bool} {body : Option (Reader (List Node))}
    {earlier : List (Branch Node)} {b : Branch Node} {parent : Span}
    (hsize : (Utf8.encode text).length < 2 ^ 32) (hforward : ∀ read ∈ body, Forward read)
    (hbody : ∀ read ∈ body, Tiling file text read) (hc : c.In text)
    (h : CaseAt file plural body earlier c b c') (hparent : Encloses parent c.offset c'.offset) :
    CasePlaced file text parent b := by
  cases h with
  | @intro key k _ nodes hkey _ hnodes =>
    obtain ⟨read, inside, stop, hread, hopen, hnodes, hclosed⟩ := hnodes
    obtain ⟨blanks, hblanks⟩ := skipBlank_eq_iff.mp (rfl : k.skipBlank = k.skipBlank)
    have hbrace : k.Passes (blanks ++ ['{']) inside := hblanks.passes.trans hopen
    -- the cursors of the case, in order
    have hk : k.In text := hc.leads hkey.leads.1
    have hinside : inside.In text := hk.leads hbrace.leads
    have hwithin : inside.Leads stop := hforward read hread _ _ _ hnodes
    have hstop : stop.In text := hinside.leads hwithin
    have hc' : c'.In text := hstop.leads hclosed.leads
    have hlast := hc'.offset_lt hsize
    have hkeylt : c.offset < k.offset := hkey.leads.1.offset_lt hkey.leads.2
    have hkle : k.offset ≤ inside.offset := hbrace.leads.offset_le
    have hinle : inside.offset ≤ stop.offset := hwithin.offset_le
    have hstople : stop.offset ≤ c'.offset := hclosed.leads.offset_le
    obtain ⟨htiles, helements⟩ := hbody read hread _ _ _ hinside hnodes
    refine ⟨?_, ?_, fun n hn => (helements n hn).2.2⟩
    · have hspan : checkSpan file ("case " ++ key) (c.spanTo file c') parent = .ok () :=
        checkSpan_between (by omega) hlast hparent
      have hkeySpan : checkSpan file ("case key " ++ key) (c.spanTo file k) (c.spanTo file c') =
          .ok () :=
        checkSpan_between hkeylt (by omega)
          (encloses_between hlast (Nat.le_refl _) (by omega) (by omega))
      have hchildren : checkNodes file (c.spanTo file c') nodes = .ok () :=
        checkNodes_of_tiles htiles (by omega)
          (encloses_between hlast (by omega) hinle hstople)
          fun n hn => ⟨(helements n hn).1, (helements n hn).2.1⟩
      rw [checkCase, hspan]
      simp only [bind, Except.bind, hkeySpan, hchildren]
    · exact ⟨c.offset, k.offset, inside.offset, stop.offset, c'.offset, blanks, rfl, rfl,
        hc'.offset_le, hc.slice hkey.passes, hk.slice hbrace, hblanks.all, htiles.fills,
        hstop.slice hclosed⟩

theorem CasesAt.placed {plural : Bool} {body : Option (Reader (List Node))} {done cs : Cases}
    {parent : Span} (hsize : (Utf8.encode text).length < 2 ^ 32)
    (hforward : ∀ read ∈ body, Forward read) (hbody : ∀ read ∈ body, Tiling file text read)
    (h : CasesAt file plural body done c cs c') (hc : c.In text)
    (hparent : Encloses parent c.offset c'.offset)
    (hdone : ∀ b ∈ done.cases, CasePlaced file text parent b) :
    ∀ b ∈ cs.cases, CasePlaced file text parent b := by
  induction h with
  | close => exact hdone
  | @offset _ _ c c₁ c₂ c' _ _ _ hword hoffset _ ih =>
    have hleads := ((leads_skipBlank c).trans hword.leads).trans hoffset.leads
    exact ih (hc.leads hleads) (hparent.mono hleads.offset_le (Nat.le_refl _)) hdone
  | @case done _ c c₁ c' b hcase hrest ih =>
    have hblank := leads_skipBlank c
    have hleads := hblank.trans (hcase.leads hforward).1
    have hplaced : CasePlaced file text parent b :=
      hcase.placed hsize hforward hbody (hc.leads hblank)
        (hparent.mono hblank.offset_le (hrest.leads hforward).offset_le)
    apply ih (hc.leads hleads) (hparent.mono hleads.offset_le (Nat.le_refl _))
    intro b' hb'
    rcases List.mem_append.mp hb' with hb' | hb'
    · exact hdone b' hb'
    · rw [List.mem_singleton.mp hb']
      exact hplaced

theorem ChoiceAt.placed {plural : Bool} {body : Option (Reader (List Node))} {cs : Cases}
    {parent : Span} (hsize : (Utf8.encode text).length < 2 ^ 32)
    (hforward : ∀ read ∈ body, Forward read) (hbody : ∀ read ∈ body, Tiling file text read)
    (h : ChoiceAt file plural body c cs c') (hc : c.In text)
    (hparent : Encloses parent c.offset c'.offset) :
    ∀ b ∈ cs.cases, CasePlaced file text parent b := by
  obtain ⟨c₁, hcomma, hcases⟩ := h
  have hleads := (leads_skipBlank c).trans hcomma.leads
  exact hcases.placed hsize hforward hbody (hc.leads hleads)
    (hparent.mono hleads.offset_le (Nat.le_refl _)) fun _ hb => nomatch hb

variable {inner : Inner} {inPlural : Bool} {n : Node}

/-- The span of a name lies in that of the element that has it. -/
theorem checkSpan_name {what : String} {start nameStart nameStop : Cursor}
    (hsize : (Utf8.encode text).length < 2 ^ 32) (hstop : c'.In text)
    (hstart : start.Leads nameStart) (hlt : nameStart.offset < nameStop.offset)
    (hend : nameStop.Leads c') :
    checkSpan file what (nameStart.spanTo file nameStop) (start.spanTo file c') = .ok () := by
  have hlast := hstop.offset_lt hsize
  have hle := hstart.offset_le
  have hle' := hend.offset_le
  exact checkSpan_between hlt (by omega) (encloses_between hlast hle (by omega) hle')

theorem NameAt.offset_lt {name : String} (h : NameAt c name c') : c.offset < c'.offset := by
  have hlength := h.run.passes.length_rest
  have hpos : 0 < name.toList.length :=
    List.length_pos_iff.mpr fun hnil => h.ne (String.toList_eq_nil_iff.mp hnil)
  exact h.run.passes.leads.offset_lt (by omega)

theorem TagNameAt.offset_lt {name : String} (h : TagNameAt c name c') : c.offset < c'.offset := by
  have hlength := h.run.passes.length_rest
  have hpos : 0 < name.toList.length :=
    List.length_pos_iff.mpr fun hnil => h.ne (String.toList_eq_nil_iff.mp hnil)
  exact h.run.passes.leads.offset_lt (by omega)

theorem ArgumentAt.placed {start inside nameStop : Cursor} {name : String} {nameSpan : Span}
    (hsize : (Utf8.encode text).length < 2 ^ 32) (hforward : inner.Forward)
    (hinner : inner.All fun _ => Tiling file text) (hstart : start.In text)
    (hinside : start.Leads inside.skipBlank) (hname : NameAt inside.skipBlank name nameStop)
    (hspan : nameSpan = inside.skipBlank.spanTo file nameStop)
    (h : ArgumentAt file inner inPlural start name nameSpan nameStop n c') :
    Placed file text start n c' := by
  have hnext : start.Leads nameStop := hinside.trans hname.run.passes.leads
  have hstop : c'.In text := (hstart.leads hnext).leads (h.leads hforward)
  -- select and plural do not differ in what is checked of their cases
  have hchoice {plural : Bool} {c₁ : Cursor} {cs : Cases} {inPlural : Bool} (htype : nameStop.Leads c₁)
      (hcases : ChoiceAt file plural (inner.bodyReader inPlural) c₁ cs c') :
      checkCases file (start.spanTo file c') cs.cases = .ok () ∧
        ∀ b ∈ cs.cases, b.Tiled file (Utf8.encode text) ∧
          ∀ m ∈ b.body, m.All (Node.Tiled file (Utf8.encode text)) := by
    have hc₁ : c₁.In text := (hstart.leads hnext).leads htype
    have hle := (hnext.trans htype).offset_le
    have hle' := (hcases.leads (hforward.bodyReader inPlural)).offset_le
    have hparent : Encloses (start.spanTo file c') c₁.offset c'.offset :=
      encloses_between (hstop.offset_lt hsize) hle hle' (Nat.le_refl _)
    have hplaced := hcases.placed hsize (hforward.bodyReader inPlural) (hinner.bodyReader inPlural)
      hc₁ hparent
    exact ⟨checkCases_of_forall fun b hb => (hplaced b hb).check,
      fun b hb => ⟨(hplaced b hb).tiled, (hplaced b hb).all⟩⟩
  cases h with
  | plain hclosed =>
    refine ⟨rfl, Node.noConfusion, ?_, .leaf trivial fun m hm => by cases hm; rfl⟩
    rw [checkBelow, hspan]
    exact checkSpan_name hsize hstop hinside hname.offset_lt
      ((leads_skipBlank _).trans hclosed.leads)
  | format htype hformat =>
    refine ⟨rfl, Node.noConfusion, ?_, .leaf trivial fun m hm => by cases hm; rfl⟩
    rw [checkBelow, hspan]
    exact checkSpan_name hsize hstop hinside hname.offset_lt (htype.leads.trans hformat.leads)
  | select htype hcases =>
    obtain ⟨hcheck, htiled⟩ := hchoice htype.leads hcases
    refine ⟨rfl, Node.noConfusion, ?_, ?_⟩
    · rw [checkBelow]
      exact hcheck
    · exact .select (fun b hb => (htiled b hb).1) fun b hb => (htiled b hb).2
  | plural htype hcases =>
    obtain ⟨hcheck, htiled⟩ := hchoice htype.leads hcases
    refine ⟨rfl, Node.noConfusion, ?_, ?_⟩
    · rw [checkBelow]
      exact hcheck
    · exact .plural (fun b hb => (htiled b hb).1) fun b hb => (htiled b hb).2

theorem TagAt.placed (hsize : (Utf8.encode text).length < 2 ^ 32) (hforward : inner.Forward)
    (hinner : inner.All fun _ => Tiling file text) (hc : c.In text)
    (h : TagAt file inner inPlural c n c') : Placed file text c n c' := by
  cases h with
  | @single name inside c₁ _ _ hopen hname hclosed =>
    have hname' := hopen.leads.trans hname.run.passes.leads
    have hend : c₁.Leads c' := (leads_skipBlank _).trans hclosed.leads
    have hstop : c'.In text := (hc.leads hname').leads hend
    refine ⟨rfl, Node.noConfusion, ?_, .tag trivial fun m hm => absurd hm List.not_mem_nil⟩
    rw [checkBelow, checkSpan_name hsize hstop hopen.leads hname.offset_lt hend]
    simp only [bind, Except.bind]
    rw [checkNodes]
  | @paired name read inside c₁ c₂ closing c₃ c₄ _ children hread hopen hname hend hbody hword
      hclose hclosed =>
    obtain ⟨blanks, hblanks⟩ := skipBlank_eq_iff.mp (rfl : c₁.skipBlank = c₁.skipBlank)
    obtain ⟨blanks', hblanks'⟩ := skipBlank_eq_iff.mp (rfl : c₄.skipBlank = c₄.skipBlank)
    have hopening : c.Passes (['<'] ++ name.toList ++ (blanks ++ ['>'])) c₂ :=
      (hopen.trans hname.run.passes).trans (hblanks.passes.trans hend)
    have hclosing : closing.Passes (['<', '/'] ++ name.toList ++ (blanks' ++ ['>'])) c' :=
      (hword.trans hclose.run.passes).trans (hblanks'.passes.trans hclosed)
    -- the cursors of the tag, in order
    have hinside : c₂.In text := hc.leads hopening.leads
    have hwithin : c₂.Leads closing := hforward.tagBody _ hread _ _ _ _ hbody
    have hclosingIn : closing.In text := hinside.leads hwithin
    have hstop : c'.In text := hclosingIn.leads hclosing.leads
    have hafter : c₁.Leads c₂ := (leads_skipBlank _).trans hend.leads
    have hlast := hstop.offset_lt hsize
    have hle := hopening.leads.offset_le
    have hle' := hwithin.offset_le
    have hle'' := hclosing.leads.offset_le
    obtain ⟨htiles, helements⟩ := hinner.tagBody _ hread inPlural _ _ _ hinside hbody
    refine ⟨rfl, Node.noConfusion, ?_, ?_⟩
    · have hspan : checkSpan file "tag name" (inside.spanTo file c₁) (c.spanTo file c') = .ok () :=
        checkSpan_name hsize hstop hopen.leads hname.offset_lt
          (hafter.trans (hwithin.trans hclosing.leads))
      have hchildren : checkNodes file (c.spanTo file c') children = .ok () :=
        checkNodes_of_tiles htiles (by omega) (encloses_between hlast hle hle' hle'')
          fun m hm => ⟨(helements m hm).1, (helements m hm).2.1⟩
      rw [checkBelow, hspan]
      exact hchildren
    · refine .tag ⟨c.offset, c₂.offset, closing.offset, c'.offset, blanks, blanks', rfl,
        hstop.offset_le, ?_, hblanks.all, htiles.fills, ?_, hblanks'.all⟩
        fun m hm => (helements m hm).2.2
      · rw [hc.slice hopening, ← List.append_assoc]
        rfl
      · rw [hclosingIn.slice hclosing, ← List.append_assoc]
        rfl

theorem ElementAt.placed (hsize : (Utf8.encode text).length < 2 ^ 32) (hforward : inner.Forward)
    (hinner : inner.All fun _ => Tiling file text) (hc : c.In text)
    (h : ElementAt file inner inPlural c n c') : Placed file text c n c' := by
  cases h with
  | literal | pound =>
    refine ⟨rfl, Node.noConfusion, ?_, .leaf trivial fun m hm => by cases hm; rfl⟩
    rw [checkBelow]
  | argument _ hname hargument =>
    obtain ⟨inside, hopen, hname, hspan⟩ := hname
    exact hargument.placed hsize hforward hinner hc (hopen.leads.trans (leads_skipBlank _)) hname
      hspan
  | tag htag => exact htag.placed hsize hforward hinner hc

theorem SiblingsAt.tiling {ns : List Node} (hsize : (Utf8.encode text).length < 2 ^ 32)
    (hforward : inner.Forward) (hinner : inner.All fun _ => Tiling file text) (hc : c.In text)
    (h : SiblingsAt (ElementAt file inner inPlural) c ns c') :
    Tiles file c.offset ns c'.offset ∧ ∀ n ∈ ns, n ≠ .hole ∧ checkBelow file n = .ok () ∧
      n.All (Node.Tiled file (Utf8.encode text)) := by
  induction h with
  | nil => exact ⟨.nil, fun _ hn => absurd hn List.not_mem_nil⟩
  | cons _ helement _ ih =>
    have hplaced := helement.placed hsize hforward hinner hc
    obtain ⟨hleads, hless⟩ := helement.leads hforward
    obtain ⟨htiles, hall⟩ := ih (hc.leads hleads)
    exact ⟨.cons (hleads.offset_lt hless) hplaced.span htiles,
      List.forall_mem_cons.mpr ⟨⟨hplaced.proper, hplaced.below, hplaced.all⟩, hall⟩⟩

end Elements

theorem tiling_readNodes {ctx : Context} {text : List Char}
    (hsize : (Utf8.encode text).length < 2 ^ 32) (budget : Nat) :
    ∀ inPlural, Tiling ctx.file text (readNodes ctx budget inPlural) := by
  refine readNodes_induction (P := fun _ => Tiling ctx.file text) ?_ budget
  intro budget hinner inPlural c ns c' hc h
  exact (readNodes_eq_ok_iff.mp h).tiling hsize (forward_innerAt ctx budget) hinner hc

/-- The spans of a tree that was read pass the span rules, and tile the text at every depth: the
whole of it, the bodies of cases and those of tags. -/
theorem spans_tile {f : File} {limit : Nat} {ns : List Node}
    (h : parse f.id limit f.content = .ok ns) :
    spanProblem? ns f = none ∧ Fills f.id 0 ns f.content.length ∧
      ∀ n ∈ ns, n.All (Node.Tiled f.id f.content) := by
  obtain ⟨hsize, text, htext, hchars⟩ := parse_eq_ok_iff.mp h
  obtain ⟨c', hrest, hread⟩ := parseChars_eq_ok_iff.mp hchars
  have hstart : (⟨0, text⟩ : Cursor).In text := .refl _
  rw [← htext] at hsize
  obtain ⟨htiles, hall⟩ := tiling_readNodes hsize limit false _ _ _ hstart hread
  -- reading stopped at the end of the text
  have hend : c'.offset = f.content.length := by
    obtain ⟨run, hrun⟩ := forward_readNodes ⟨f.id, limit⟩ limit false _ _ _ hread
    have hwhole : text = run ++ c'.rest := hrun.rest
    have hoffset : c'.offset = 0 + Skeleton.byteLength run := hrun.offset
    rw [hrest, List.append_nil] at hwhole
    rw [← htext, Skeleton.length_encode, hoffset, hwhole, Nat.zero_add]
  rw [hend, ← htext] at htiles
  have hcheck : checkNodes f.id (Span.between f.id 0 (Utf8.encode text).length) ns = .ok () :=
    checkNodes_of_tiles htiles hsize
      (encloses_between hsize (Nat.le_refl _) (Nat.zero_le _) (Nat.le_refl _))
      fun n hn => ⟨(hall n hn).1, (hall n hn).2.1⟩
  rw [← htext]
  refine ⟨?_, htiles.fills, fun n hn => (hall n hn).2.2⟩
  rw [spanProblem?, File.span, ← htext, hcheck]

/-- Blanks in every place that skips them, quoted text, an empty body and a tag in a tag. -/
def blankText : File :=
  ⟨2, "a.txt#m", Utf8.encode "é'\x7b'\x7b n , plural , =1 \x7b\x7d other \x7b <b ><i/># </b > \x7d\x7d".toList, 1⟩

theorem spans_tile_blankText :
    ∃ ns, parse blankText.id 8 blankText.content = .ok ns ∧ spanProblem? ns blankText = none ∧
      Fills blankText.id 0 ns blankText.content.length ∧
      ∀ n ∈ ns, n.All (Node.Tiled blankText.id blankText.content) := by
  have hread : ∃ ns, parse blankText.id 8 blankText.content = .ok ns := ⟨_, rfl⟩
  obtain ⟨ns, hns⟩ := hread
  exact ⟨ns, hns, spans_tile hns⟩

end Message

end Phrasebook
