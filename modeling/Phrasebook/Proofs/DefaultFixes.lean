import Phrasebook.Proofs.Completion
import Phrasebook.Proofs.Framing
import Phrasebook.Proofs.Steps
import Phrasebook.Proofs.Tiling

/-!
The fix of a missing default case. A message that fails for want of one is told which choice lacks
it; the edit that comes with the diagnostic gives a text that is read as the same tree, with the case
in that choice.
-/
namespace Phrasebook

open Message Compile

/-- A text with an edit made in it. -/
def Edit.apply (e : Edit) (content : Bytes) : Bytes :=
  content.take e.span.start.toNat ++ Bytes.ofText e.newText ++ content.drop e.span.stop.toNat

namespace Compile

/-! ### Which failures want a default case -/

/-- A failure that wants a default case wants it in a choice of some kind. -/
def Failure.Wants (p : Node → Prop) : Failure → Prop
  | .diagnostic d => d.code = .missingDefaultCase →
    ∃ m kind, p m ∧ m.LacksDefault ∧ d = missingDefault m.span kind
  | _ => True

/-- A diagnostic of another code wants no default case. -/
theorem wants_of_stop {α : Type} {p : Node → Prop} {d : Diagnostic} (code : Code)
    (hcode : code ≠ .missingDefaultCase) (hd : d.code = code) {f : Failure}
    (h : (stop d : Except Failure α) = .error f) : f.Wants p := by
  rw [← Except.error.inj h]
  exact fun hmissing => absurd (hd.symm.trans hmissing) hcode

/-- A step that wants a default case, if at all, in a choice of some kind. -/
def Step.Wants {α : Type} (p : Node → Prop) (x : Step α) : Prop :=
  ∀ s f s', x.exec s = (.error f, s') → f.Wants p

namespace Step.Wants

variable {α β : Type} {p : Node → Prop}

theorem ok {x : Step α} (h : ∀ s, ∃ a s', x.exec s = (.ok a, s')) : x.Wants p := by
  intro s f s' hf
  obtain ⟨a, s'', hx⟩ := h s
  rw [hx] at hf
  cases hf

theorem pure (a : α) : Step.Wants p (Pure.pure a : Step α) :=
  ok fun s => ⟨a, s, exec_pure s a⟩

theorem bind {x : Step α} {f : α → Step β} (hx : x.Wants p) (hf : ∀ a, (f a).Wants p) :
    Step.Wants p (x >>= f) := by
  intro s e s' h
  rw [exec_bind] at h
  split at h
  · rename_i a s₁ hrun
    exact hf a s₁ e s' h
  · rename_i e' s₁ hrun
    rw [← Except.error.inj (Prod.mk.inj h).1]
    exact hx s e' s₁ hrun

theorem lift {x : Except Failure α} (h : ∀ f, x = .error f → f.Wants p) :
    Step.Wants p (liftM x : Step α) := by
  intro s f s' hf
  rw [exec_lift] at hf
  exact h f (Prod.mk.inj hf).1

theorem stop {d : Diagnostic} (code : Code) (hcode : code ≠ .missingDefaultCase)
    (hd : d.code = code) : Step.Wants p (liftM (Compile.stop d : Except Failure α) : Step α) :=
  lift fun _ hf => wants_of_stop code hcode hd hf

theorem reads : Step.Wants p (get : Step State) :=
  ok fun s => ⟨s, s, exec_get s⟩

theorem writes (s : State) : Step.Wants p (set s : Step PUnit) :=
  ok fun s' => ⟨⟨⟩, s, exec_set s' s⟩

theorem modifies (f : State → State) : Step.Wants p (modify f : Step PUnit) :=
  ok fun s => ⟨⟨⟩, f s, exec_modify s f⟩

end Step.Wants

section Steps

variable {p : Node → Prop} {ctx : Context}

theorem useArgument_wants (name : String) (type : ArgType) (span : Span) :
    (useArgument ctx name type span).Wants p := by
  unfold useArgument
  refine .bind .reads fun s => ?_
  split
  · split
    · exact .stop .argumentTypeConflict (by decide) rfl
    · exact .bind (.writes _) fun _ => .pure _
  · split
    · exact .stop .duplicateBinding (by decide) rfl
    · exact .bind (.writes _) fun _ => .pure _

theorem bindConstant_wants (scope : ScopeId) (base : String) :
    (bindConstant scope base).Wants p := by
  unfold bindConstant
  refine .bind .reads fun s => ?_
  split
  · exact .stop .duplicateBinding (by decide) rfl
  · exact .bind (.writes _) fun _ => .pure _

theorem shareConstant_wants (key : SharedKey) (base : String) (init : Expr) :
    (shareConstant ctx key base init).Wants p := by
  unfold shareConstant
  refine .bind .reads fun s => ?_
  split
  · exact .pure _
  · exact .bind (bindConstant_wants _ _) fun name => .bind (.modifies _) fun _ => .pure _

theorem deriveConstant_wants (key : LocalKey) (base : String) :
    (deriveConstant ctx key base).Wants p := by
  unfold deriveConstant
  refine .bind .reads fun s => ?_
  split
  · exact .pure _
  · exact .bind (bindConstant_wants _ _) fun name => .bind (.modifies _) fun _ => .pure _

theorem useFormatted_wants (v : ValueRef) (kind : FormatKind) (preset : String)
    (o : FormatOptions) : (useFormatted ctx v kind preset o).Wants p :=
  .bind (shareConstant_wants _ _ _) fun _ => .bind (deriveConstant_wants _ _) fun _ => .pure _

theorem useCategory_wants (v : ValueRef) (kind : PluralKind) :
    (useCategory ctx v kind).Wants p :=
  .bind (shareConstant_wants _ _ _) fun _ => .bind (deriveConstant_wants _ _) fun _ => .pure _

theorem useOffset_wants (v : ValueRef) (offset : Float) : (useOffset ctx v offset).Wants p := by
  unfold useOffset
  split
  · exact .pure _
  · exact .bind (deriveConstant_wants _ _) fun _ => .pure _

theorem resolveStyle_wants (formats : Formats) (span : Span) (kind : FormatKind) (style : Style) :
    ∀ f, resolveStyle formats span kind style = .error f → f.Wants p := by
  intro f hf
  unfold resolveStyle at hf
  split at hf
  · exact nomatch hf
  · split at hf
    · exact wants_of_stop .unknownFormatStyle (by decide) rfl hf
    · split at hf <;> exact nomatch hf
  · split at hf <;> exact nomatch hf

theorem requireDefault_wants {m : Node} {kind : String} {cases : List (Branch Node)} (hm : p m)
    (hlacks : (∀ b ∈ cases, b.key ≠ defaultKey) → m.LacksDefault) :
    ∀ f, requireDefault m.span kind cases = .error f → f.Wants p := by
  intro f hf
  rw [requireDefault] at hf
  split at hf
  · cases hf
  · rename_i hnone
    rw [← Except.error.inj hf]
    refine fun _ => ⟨m, kind, hm, hlacks fun b hb hkey => hnone ?_, rfl⟩
    exact List.any_eq_true.mpr ⟨b, hb, beq_iff_eq.mpr hkey⟩

variable {plural : Option ValueRef}

theorem nodes_wants {ns : List Node} (h : ∀ n ∈ ns, (node ctx plural n).Wants p) :
    (nodes ctx plural ns).Wants p := by
  induction ns with
  | nil =>
    rw [nodes]
    exact .pure _
  | cons n r ih =>
    obtain ⟨hn, hr⟩ := List.forall_mem_cons.mp h
    rw [nodes]
    exact .bind hn fun _ => .bind (ih hr) fun _ => .pure _

theorem branches_wants {selector : Selector} {test : String → Option Float → Expr}
    {seen : List String} {cases : List (Branch Node)}
    (hselector : ∀ key span f, selector key span = .error f → f.Wants p)
    (h : ∀ b ∈ cases, ∀ n ∈ b.body, (node ctx plural n).Wants p) :
    (branches ctx plural selector test seen cases).Wants p := by
  induction cases generalizing seen with
  | nil =>
    rw [branches]
    exact .pure _
  | cons b r ih =>
    obtain ⟨hb, hr⟩ := List.forall_mem_cons.mp h
    rw [branches]
    split
    · exact ih hr
    · refine .bind ?_ fun _ => .bind (ih hr) fun _ => .pure _
      rw [branch.eq_def]
      exact .bind (.lift (hselector _ _)) fun _ => .bind (nodes_wants hb) fun _ => .pure _

theorem defaultBranch_wants {cases : List (Branch Node)}
    (h : ∀ b ∈ cases, ∀ n ∈ b.body, (node ctx plural n).Wants p) :
    (defaultBranch ctx plural cases).Wants p := by
  induction cases with
  | nil =>
    rw [defaultBranch]
    exact .pure _
  | cons b r ih =>
    obtain ⟨hb, hr⟩ := List.forall_mem_cons.mp h
    rw [defaultBranch]
    split
    · rw [defaultBody.eq_def]
      exact .bind (nodes_wants hb) fun _ => .pure _
    · exact ih hr

end Steps

/-- A choice that is missed lies in the element that is compiled. -/
theorem node_wants (n : Node) : ∀ (p : Node → Prop), (∀ m : Node, m.Within n → p m) →
    ∀ ctx plural, (node ctx plural n).Wants p := by
  revert n
  apply Node.Hereditary.holds
  constructor
  case literal =>
    intro span text p hp ctx plural
    rw [node]
    exact .pure _
  case argument =>
    intro span name nameSpan p hp ctx plural
    rw [node]
    exact .bind (useArgument_wants _ _ _) fun _ => .pure _
  case select =>
    intro span name nameSpan cases ih p hp ctx plural
    -- what lies in a case lies in the choice
    have hbelow : ∀ b ∈ cases, ∀ n ∈ b.body, ∀ m : Node, m.Within n → p m :=
      fun b hb n hn m hm => hp m (.select hb hn hm)
    rw [node]
    refine .bind (useArgument_wants _ _ _) fun v => .bind (.lift ?_) fun _ => .bind ?_ fun _ =>
      .bind ?_ fun _ => .pure _
    · exact requireDefault_wants (m := .select span name nameSpan cases) (hp _ .refl) id
    · exact branches_wants (fun _ _ _ hf => nomatch hf)
        fun b hb n hn => ih b hb n hn p (hbelow b hb n hn) ctx plural
    · exact defaultBranch_wants fun b hb n hn => ih b hb n hn p (hbelow b hb n hn) ctx plural
  case plural =>
    intro span name nameSpan offset kind cases ih p hp ctx plural
    have hbelow : ∀ b ∈ cases, ∀ n ∈ b.body, ∀ m : Node, m.Within n → p m :=
      fun b hb n hn m hm => hp m (.plural hb hn hm)
    have hselector : ∀ key span f, pluralSelector key span = .error f → f.Wants p := by
      intro key span f hf
      rw [pluralSelector] at hf
      split at hf
      · split at hf
        · exact nomatch hf
        · exact wants_of_stop .invalidPluralKey (by decide) rfl hf
      · exact nomatch hf
    rw [node]
    refine .bind (useArgument_wants _ _ _) fun v => .bind (.lift ?_) fun _ =>
      .bind (useOffset_wants _ _) fun shifted => .bind ?_ fun _ => .bind ?_ fun _ =>
      .bind ?_ fun _ => .pure _
    · exact requireDefault_wants (m := .plural span name nameSpan offset kind cases) (hp _ .refl) id
    · split
      · exact useCategory_wants _ _
      · exact .pure _
    · exact branches_wants hselector
        fun b hb n hn => ih b hb n hn p (hbelow b hb n hn) ctx (some shifted)
    · exact defaultBranch_wants
        fun b hb n hn => ih b hb n hn p (hbelow b hb n hn) ctx (some shifted)
  case format =>
    intro span kind name nameSpan style p hp ctx plural
    rw [node]
    exact .bind (useArgument_wants _ _ _) fun _ => .bind (.lift (resolveStyle_wants _ _ _ _))
      fun _ => .bind (useFormatted_wants _ _ _ _) fun _ => .pure _
  case pound =>
    intro span p hp ctx plural
    rw [node.eq_def]
    cases plural with
    | none => exact .stop .poundOutsidePlural (by decide) rfl
    | some v => exact .bind (useFormatted_wants _ _ _ _) fun _ => .pure _
  case tag =>
    intro span name nameSpan selfClosing children ih p hp ctx plural
    rw [node]
    refine .bind (.lift ?_) fun _ => .bind (useArgument_wants _ _ _) fun _ => .bind ?_ fun _ =>
      .pure _
    · intro f hf
      rw [requireIdentifier] at hf
      split at hf
      · exact nomatch hf
      · exact wants_of_stop .invalidIdentifier (by decide) rfl hf
    · split
      · exact .pure _
      · exact nodes_wants fun n hn => ih n hn p (fun m hm => hp m (.tag hn hm)) ctx plural
  case unknown =>
    intro span p hp ctx plural s f s' hf
    rw [node, Step.exec_throw] at hf
    rw [← Except.error.inj (Prod.mk.inj hf).1]
    trivial
  case hole =>
    intro p hp ctx plural s f s' hf
    rw [node, Step.exec_throw] at hf
    rw [← Except.error.inj (Prod.mk.inj hf).1]
    trivial

/-- A message that fails for want of a default case is told which choice in it lacks one. -/
theorem addCompiled_wants {m : Module} {name : Bytes} {ns : List Node} {span : Span}
    {e : CompileError} (h : (m.addCompiled name ns span).2 = some (.compile e))
    (hcode : e.diagnostic.code = .missingDefaultCase) :
    ∃ n ∈ ns, ∃ (choice : Node) (kind : String), choice.Within n ∧ choice.LacksDefault ∧
      e.diagnostic = missingDefault choice.span kind := by
  rw [Module.addCompiled] at h
  split at h
  · obtain rfl := ModuleError.compile.inj (Option.some.inj h)
    have hother : Code.duplicateExport = .missingDefaultCase := hcode
    exact absurd hother (by decide)
  · split at h
    · rename_i f s hrun
      have hwants : f.Wants fun choice => ∃ n ∈ ns, choice.Within n := by
        refine Step.Wants.bind (nodes_wants fun n hn => ?_) (fun _ => .pure _) _ f s hrun
        exact node_wants n _ (fun choice hchoice => ⟨n, hn, hchoice⟩) _ _
      cases f with
      | diagnostic d =>
        obtain rfl := ModuleError.compile.inj (Option.some.inj h)
        obtain ⟨choice, kind, ⟨n, hn, hwithin⟩, hlacks, hd⟩ := hwants hcode
        exact ⟨n, hn, choice, kind, hwithin, hlacks, hd⟩
      | unknownNode kind => cases h
      | hole => cases h
    · split at h
      · cases h
      · cases h

/-! ### The edit -/

/-- The edit that writes a default case in front of the last byte of a choice. -/
def defaultEdit (span : Span) : Edit :=
  ⟨⟨span.file, span.stop - 1, span.stop - 1⟩, " other \x7b\x7d"⟩

theorem missingDefault_fixes {span : Span} (h : span.isEmpty = false) (kind : String) :
    (missingDefault span kind).fixes = [⟨"add an \"other\" case", [defaultEdit span]⟩] := by
  rw [missingDefault]
  simp only [h]
  rfl

theorem missingDefault_primary (span : Span) (kind : String) :
    (missingDefault span kind).primary = span := by
  rw [missingDefault]
  simp only
  split <;> rfl

theorem isEmpty_between {file : UInt32} {start stop : Nat} (hle : start < stop)
    (hstop : stop < 2 ^ 32) : (Span.between file start stop).isEmpty = false := by
  have hne : start.toUInt32 ≠ stop.toUInt32 := by
    intro heq
    have hnat := congrArg UInt32.toNat heq
    rw [toNat_toUInt32 (by omega), toNat_toUInt32 hstop] at hnat
    omega
  exact beq_eq_false_iff_ne.mpr hne

/-- The edit puts the case where the readers expect it. -/
theorem apply_defaultEdit {file : UInt32} {choice : Node} {text after : List Char}
    (hsize : (Utf8.encode text).length < 2 ^ 32) (h : Extended file choice ⟨0, text⟩ after) :
    choice.span.isEmpty = false ∧
      (defaultEdit choice.span).apply (Utf8.encode text) = Utf8.encode after := by
  obtain ⟨start, stop, before, behind, hspan, hle, hrest, hafter, hstop⟩ := h.added
  have hplace : stop = (Utf8.encode before).length := by
    rw [hstop, Skeleton.length_encode]
    exact Nat.zero_add _
  have hbytes : Utf8.encode text = Utf8.encode before ++ Utf8.encode ('}' :: behind) := by
    rw [← Utf8.encode_append, ← show text = before ++ '}' :: behind from hrest]
  have hshort : stop + 1 < 2 ^ 32 := by
    have hbrace : 1 ≤ (Utf8.encode ('}' :: behind)).length := by
      rw [Skeleton.length_encode, Skeleton.byteLength_cons]
      exact Nat.le_add_right_of_le (by decide)
    rw [hbytes, List.length_append, ← hplace] at hsize
    omega
  have hword : ((stop + 1).toUInt32 - 1).toNat = stop := by
    rw [UInt32.toNat_sub_of_le, toNat_toUInt32 hshort]
    · exact Nat.add_sub_cancel stop 1
    · rw [UInt32.le_iff_toNat_le, toNat_toUInt32 hshort]
      exact Nat.le_add_left 1 stop
  refine ⟨hspan ▸ isEmpty_between (by omega) hshort, ?_⟩
  have hedit : Bytes.ofText " other \x7b\x7d" = Utf8.encode addedCase := Bytes.ofText_eq _
  rw [Edit.apply, hspan, defaultEdit, hedit]
  change (Utf8.encode text).take ((stop + 1).toUInt32 - 1).toNat ++ Utf8.encode addedCase ++
    (Utf8.encode text).drop ((stop + 1).toUInt32 - 1).toNat = Utf8.encode after
  rw [hword, hbytes, hplace, List.take_left, List.drop_left, hafter, Utf8.encode_append,
    Utf8.encode_append, List.append_assoc]

/-- A message that is read and fails for want of a default case comes with one fix of one edit. The
text with the edit made in it is read, if 32 bits count its bytes, with the same limit, as the same
tree up to spans with an empty default case behind the cases of the choice that was reported. -/
theorem missingDefault_fixed {m : Module} {file : UInt32} {limit : Nat} {name content : Bytes}
    {ns : List Node} {span : Span} {e : CompileError}
    (hread : parse file limit content = .ok ns)
    (hfail : (m.addCompiled name ns span).2 = some (.compile e))
    (hcode : e.diagnostic.code = .missingDefaultCase) :
    ∃ title edit, e.diagnostic.fixes = [⟨title, [edit]⟩] ∧
      ((edit.apply content).length < 2 ^ 32 →
        ∃ ns', parse file limit (edit.apply content) = .ok ns' ∧
          Node.CompletedNodes e.diagnostic.primary ns (ns'.map Node.bare)) := by
  obtain ⟨n, hn, choice, kind, hwithin, hlacks, hdiagnostic⟩ := addCompiled_wants hfail hcode
  obtain ⟨hsize, text, rfl, hchars⟩ := parse_eq_ok_iff.mp hread
  obtain ⟨c', hend, hnodes⟩ := parseChars_eq_ok_iff.mp hchars
  obtain ⟨after, hafter, hagain⟩ :=
    completes_readNodes ⟨file, limit⟩ limit false _ _ _ _ _ hnodes hn hwithin hlacks
  obtain ⟨hnonempty, happly⟩ := apply_defaultEdit hsize hafter
  obtain ⟨ns', d', hnodes', hend', hcompleted⟩ := hagain ⟨0, after⟩ rfl
  refine ⟨"add an \"other\" case", defaultEdit choice.span, ?_, fun hedited => ⟨ns', ?_, ?_⟩⟩
  · rw [hdiagnostic, missingDefault_fixes hnonempty]
  · rw [happly] at hedited ⊢
    exact parse_eq_ok_iff.mpr ⟨hedited, after, rfl,
      parseChars_eq_ok_iff.mpr ⟨d', hend'.trans hend, hnodes'⟩⟩
  · rw [hdiagnostic, missingDefault_primary]
    exact hcompleted

/-- A choice without a default in the default case of another one, with blanks before its brace. -/
def undecidedText : Bytes :=
  Utf8.encode "'\x7b' <b>\x7bg, select, other \x7b\x7bh,select,a \x7b'\x7d'\x7d \x7d!\x7d\x7d</b> \x7bg\x7d".toList

/-- What is wrong with elements as the first message of a module. -/
def refusalOf (ns : List Node) : Option Diagnostic :=
  match ((Module.new .empty ⟨"en", .empty, .string, ""⟩).addCompiled [] ns .zero).2 with
  | some (.compile e) => some e.diagnostic
  | _ => none

theorem missingDefault_fixed_undecidedText : ∃ ns e,
    parse 3 5 undecidedText = .ok ns ∧
    ((Module.new .empty ⟨"en", .empty, .string, ""⟩).addCompiled [] ns .zero).2 =
      some (.compile e) ∧ e.diagnostic.code = .missingDefaultCase ∧
    ∃ title edit ns', e.diagnostic.fixes = [⟨title, [edit]⟩] ∧
      parse 3 5 (edit.apply undecidedText) = .ok ns' ∧
      Node.CompletedNodes e.diagnostic.primary ns (ns'.map Node.bare) := by
  have hcomputed : ∃ d ∈ (parse 3 5 undecidedText).toOption.bind refusalOf,
      d.code = .missingDefaultCase ∧ ∀ fix ∈ d.fixes, ∀ edit ∈ fix.edits,
        (edit.apply undecidedText).length < 2 ^ 32 := by
    decide +kernel
  obtain ⟨d, hd, hcode, hshort⟩ := hcomputed
  obtain ⟨ns, hns, hrefused⟩ := Option.bind_eq_some_iff.mp hd
  have hread : parse 3 5 undecidedText = .ok ns := by
    cases hparse : parse 3 5 undecidedText with
    | error f => rw [hparse] at hns; cases hns
    | ok ns' => rw [hparse] at hns; rw [Option.some.inj hns]
  rw [refusalOf] at hrefused
  split at hrefused
  · rename_i e hfail
    obtain rfl : e.diagnostic = d := Option.some.inj hrefused
    obtain ⟨title, edit, hfixes, hfixed⟩ := missingDefault_fixed hread hfail hcode
    have hedited : (edit.apply undecidedText).length < 2 ^ 32 := by
      refine hshort ⟨title, [edit]⟩ ?_ edit (List.mem_singleton_self edit)
      rw [hfixes]
      exact List.mem_singleton_self _
    obtain ⟨ns', hagain, hcompleted⟩ := hfixed hedited
    exact ⟨ns, e, hread, hfail, hcode, title, edit, ns', hfixes, hagain, hcompleted⟩
  · cases hrefused

end Compile

end Phrasebook
