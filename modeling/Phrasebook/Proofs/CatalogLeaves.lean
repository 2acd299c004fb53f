import Mathlib
import Phrasebook.Catalog
import Phrasebook.Proofs.JsonDocuments

/-!
Catalogs are flattened faithfully. The leaves of a document are the values that its objects hold and
that are no objects, each with the keys on the way to it. Reading a catalog goes through the leaves
in the order of the text, gives a message for each string and a diagnostic over the bytes of every
other one. A name joins all keys of the path but the empty ones that the path starts with.
-/
namespace Phrasebook

namespace LocatedJson

/-! ### Leaves of a document -/

def start : LocatedJson → Nat
  | .null start _ | .bool start _ | .number start _ | .string start _ _ | .array start _ _
  | .object start _ _ => start

def stop : LocatedJson → Nat
  | .null _ stop | .bool _ stop | .number _ stop | .string _ stop _ | .array _ stop _
  | .object _ stop _ => stop

def isObject : LocatedJson → Bool
  | .object _ _ _ => true
  | _ => false

def isString : LocatedJson → Bool
  | .string _ _ _ => true
  | _ => false

/-- A value that is no object, found by going into objects by these keys. -/
inductive HasLeaf : LocatedJson → List Bytes → LocatedJson → Prop
  | here {v : LocatedJson} : v.isObject = false → HasLeaf v [] v
  | inside {start stop : Nat} {members : List (Bytes × LocatedJson)} {key : Bytes}
      {path : List Bytes} {v w : LocatedJson} : (key, v) ∈ members → HasLeaf v path w →
      HasLeaf (.object start stop members) (key :: path) w

theorem HasLeaf.not_object {v w : LocatedJson} {path : List Bytes} (h : HasLeaf v path w) :
    w.isObject = false := by
  induction h with
  | here h => exact h
  | inside _ _ ih => exact ih

mutual

/-- The leaves of a value in the order of the text. -/
def leaves : LocatedJson → List (List Bytes × LocatedJson)
  | .object _ _ members => memberLeaves members
  | v => [([], v)]

def memberLeaves : List (Bytes × LocatedJson) → List (List Bytes × LocatedJson)
  | [] => []
  | (key, v) :: r => (leaves v).map (fun l => (key :: l.1, l.2)) ++ memberLeaves r

end

-- the equations are made once, ahead of the lemmas that rewrite with them
attribute [local simp] leaves memberLeaves

theorem leaves_of_not_object {v : LocatedJson} (h : v.isObject = false) : leaves v = [([], v)] := by
  cases v with
  | object => cases h
  | _ => rw [leaves]; exact fun _ _ _ heq => nomatch heq

theorem mem_memberLeaves_iff {members : List (Bytes × LocatedJson)} {path : List Bytes}
    {w : LocatedJson} : (path, w) ∈ memberLeaves members ↔
      ∃ key v path', (key, v) ∈ members ∧ (path', w) ∈ leaves v ∧ path = key :: path' := by
  induction members with
  | nil => simp [memberLeaves]
  | cons m r ih =>
    obtain ⟨key, v⟩ := m
    rw [memberLeaves, List.mem_append, ih, List.mem_map]
    constructor
    · rintro (⟨⟨path', w'⟩, hmem, heq⟩ | ⟨key', v', path', hmem, hleaf, rfl⟩)
      · cases heq
        exact ⟨key, v, path', List.mem_cons_self, hmem, rfl⟩
      · exact ⟨key', v', path', List.mem_cons_of_mem _ hmem, hleaf, rfl⟩
    · rintro ⟨key', v', path', hmem, hleaf, rfl⟩
      rcases List.mem_cons.mp hmem with heq | hmem
      · cases heq
        exact .inl ⟨(path', w), hleaf, rfl⟩
      · exact .inr ⟨key', v', path', hmem, hleaf, rfl⟩

theorem HasLeaf.mem {v w : LocatedJson} {path : List Bytes} (h : HasLeaf v path w) :
    (path, w) ∈ leaves v := by
  induction h with
  | here hv => rw [leaves_of_not_object hv]; exact List.mem_singleton_self _
  | inside hmem _ ih =>
    rw [leaves]
    exact mem_memberLeaves_iff.mpr ⟨_, _, _, hmem, ih, rfl⟩

theorem hasLeaf_of_mem {v w : LocatedJson} {path : List Bytes} (h : (path, w) ∈ leaves v) :
    HasLeaf v path w := by
  -- each key of a path leads into one more object
  induction path generalizing v with
  | nil =>
    cases v with
    | object start stop members =>
      rw [leaves] at h
      obtain ⟨_, _, _, _, _, heq⟩ := mem_memberLeaves_iff.mp h
      cases heq
    | _ =>
      rw [leaves_of_not_object rfl] at h
      cases List.mem_singleton.mp h
      exact .here rfl
  | cons key path ih =>
    cases v with
    | object start stop members =>
      rw [leaves] at h
      obtain ⟨_, v, _, hmem, hleaf, heq⟩ := mem_memberLeaves_iff.mp h
      cases heq
      exact .inside hmem (ih hleaf)
    | _ =>
      rw [leaves_of_not_object rfl] at h
      cases List.mem_singleton.mp h

theorem mem_leaves_iff {v w : LocatedJson} {path : List Bytes} :
    (path, w) ∈ leaves v ↔ HasLeaf v path w :=
  ⟨hasLeaf_of_mem, HasLeaf.mem⟩

/-! ### Where leaves stand -/

theorem Spells.start_eq {i : Nat} {text : Bytes} {v : LocatedJson} (h : Spells i text v) :
    v.start = i := by
  cases h <;> rfl

theorem Spells.stop_eq {i : Nat} {text : Bytes} {v : LocatedJson} (h : Spells i text v) :
    v.stop = i + text.length := by
  cases h <;> simp [stop]

/-- Values spelled one behind the other in a text that starts at an offset. -/
structure Stand (i : Nat) (text : Bytes) (found : List (List Bytes × LocatedJson)) : Prop where
  spells : ∀ l ∈ found, ∃ before part after, text = before ++ part ++ after ∧
    Spells (i + before.length) part l.2
  ordered : found.Pairwise fun l l' => l.2.stop ≤ l'.2.start

namespace Stand

variable {i : Nat} {text before after : Bytes} {found found' : List (List Bytes × LocatedJson)}

theorem nil (i : Nat) (text : Bytes) : Stand i text [] :=
  ⟨fun _ h => (nomatch h), .nil⟩

theorem single {v : LocatedJson} (path : List Bytes) (h : Spells i text v) :
    Stand i text [(path, v)] := by
  refine ⟨fun l hl => ?_, List.pairwise_singleton _ _⟩
  cases List.mem_singleton.mp hl
  exact ⟨[], text, [], by rw [List.nil_append, List.append_nil], h⟩

/-- Values stand inside the text. -/
theorem bounds (h : Stand i text found) :
    ∀ l ∈ found, i ≤ l.2.start ∧ l.2.start ≤ l.2.stop ∧ l.2.stop ≤ i + text.length := by
  intro l hl
  obtain ⟨before, part, after, rfl, hspells⟩ := h.spells l hl
  rw [hspells.start_eq, hspells.stop_eq]
  simp only [List.length_append]
  omega

/-- No value is empty, so values start in their order. -/
theorem starts_lt (h : Stand i text found) :
    found.Pairwise fun l l' => l.2.start < l'.2.start := by
  refine h.ordered.imp_of_mem fun {l l'} hl _ hstop => ?_
  obtain ⟨before, part, after, -, hspells⟩ := h.spells l hl
  obtain ⟨b, r, rfl, -⟩ := hspells.head
  have hlonger := hspells.stop_eq
  rw [← hspells.start_eq, List.length_cons] at hlonger
  omega

/-- The keys on the way do not matter. -/
theorem map (h : Stand i text found) (f : List Bytes → List Bytes) :
    Stand i text (found.map fun l => (f l.1, l.2)) := by
  refine ⟨fun l hl => ?_, List.pairwise_map.mpr h.ordered⟩
  obtain ⟨l', hl', rfl⟩ := List.mem_map.mp hl
  exact h.spells l' hl'

/-- A part of a text. -/
theorem widen (h : Stand (i + before.length) text found) :
    Stand i (before ++ text ++ after) found := by
  refine ⟨fun l hl => ?_, h.ordered⟩
  obtain ⟨before', part, after', rfl, hspells⟩ := h.spells l hl
  refine ⟨before ++ before', part, after' ++ after, by simp, ?_⟩
  rw [List.length_append, ← Nat.add_assoc]
  exact hspells

theorem append {rest : Bytes} (sep : Bytes) (h : Stand i text found)
    (h' : Stand (i + text.length + sep.length) rest found') :
    Stand i (text ++ sep ++ rest) (found ++ found') := by
  have hleft : Stand i (text ++ sep ++ rest) found := by
    have hwide : Stand i ([] ++ text ++ (sep ++ rest)) found := widen h
    rwa [List.nil_append, ← List.append_assoc] at hwide
  have hright : Stand i (text ++ sep ++ rest) found' := by
    have hwide : Stand i (text ++ sep ++ rest ++ []) found' :=
      widen (by rwa [List.length_append, ← Nat.add_assoc])
    rwa [List.append_nil] at hwide
  refine ⟨fun l hl => ?_, List.pairwise_append.mpr ⟨h.ordered, h'.ordered, ?_⟩⟩
  · rcases List.mem_append.mp hl with hl | hl
    · exact hleft.spells l hl
    · exact hright.spells l hl
  · intro l hl l' hl'
    have hstop := (h.bounds l hl).2.2
    have hstart := (h'.bounds l' hl').1
    omega

end Stand

/-- What stands in the value of a member stands in the text of the member. -/
theorem Padded.stand {i : Nat} {before text : Bytes} {v : LocatedJson}
    {found : List (List Bytes × LocatedJson)} (key : Bytes) (h : Padded (i + before.length) text v)
    (hv : ∀ {j part}, Spells j part v → Stand j part found) :
    Stand i (before ++ text) (found.map fun l => (key :: l.1, l.2)) := by
  cases h with
  | @mk _ ws part ws' _ _ _ hspells =>
    have hpadded : Stand (i + before.length) (ws ++ part ++ ws') found := (hv hspells).widen
    have hmember : Stand i (before ++ (ws ++ part ++ ws') ++ []) found := hpadded.widen
    rw [List.append_nil] at hmember
    exact hmember.map (key :: ·)

mutual

/-- The leaves of a value stand in its text, one behind the other. -/
theorem leaves_stand (v : LocatedJson) {i : Nat} {text : Bytes} (h : Spells i text v) :
    Stand i text (leaves v) := by
  match v, h with
  | .object start stop members, h =>
    rw [leaves]
    cases h with
    | emptyObject => exact .nil i _
    | @object _ text _ hmembers =>
      have hinside : Stand i ([0x7B] ++ text ++ [0x7D]) (memberLeaves members) :=
        (memberLeaves_stand members hmembers).widen
      exact hinside
  | .null _ _, h => exact .single [] h
  | .bool _ _, h => exact .single [] h
  | .number _ _, h => exact .single [] h
  | .string _ _ _, h => exact .single [] h
  | .array _ _ _, h => exact .single [] h

theorem memberLeaves_stand (members : List (Bytes × LocatedJson)) {i : Nat} {text : Bytes}
    (h : SpellsMembers i text members) : Stand i text (memberLeaves members) := by
  match members, h with
  | [(key, v)], .last _ _ hpadded =>
    rw [memberLeaves, memberLeaves, List.append_nil]
    exact hpadded.stand key fun hspells => leaves_stand v hspells
  | (key, v) :: r, .more _ _ hpadded hrest =>
    rw [memberLeaves]
    have hmember := hpadded.stand key fun hspells => leaves_stand v hspells
    have hmore := hmember.append [0x2C] (memberLeaves_stand r hrest)
    rwa [List.append_assoc _ [0x2C], List.singleton_append] at hmore

end

/-- A value stands in its document where it says it does. -/
theorem DocumentText.stand {bs : Bytes} {v : LocatedJson} (h : DocumentText bs v) :
    Stand 0 bs (leaves v) := by
  obtain ⟨_, -, -, hspells⟩ := h
  exact (leaves_stand v hspells).widen (i := 0)

/-- The bytes of a value spell it. -/
theorem Stand.slice {bs : Bytes} {found : List (List Bytes × LocatedJson)} (h : Stand 0 bs found)
    {l : List Bytes × LocatedJson} (hl : l ∈ found) :
    Spells l.2.start (bs.slice l.2.start l.2.stop) l.2 := by
  obtain ⟨before, part, after, rfl, hspells⟩ := h.spells l hl
  have hslice : (before ++ part ++ after).slice l.2.start l.2.stop = part := by
    have hstart : l.2.start = before.length := by rw [hspells.start_eq, Nat.zero_add]
    have hlength : l.2.stop - l.2.start = part.length := by
      rw [hspells.stop_eq, hspells.start_eq]
      omega
    rw [Bytes.slice, hlength, hstart, List.append_assoc, List.drop_left, List.take_left]
  rw [hslice, hspells.start_eq]
  exact hspells

end LocatedJson

namespace Catalog

open LocatedJson

/-! ### Names -/

/-- The keys of a path with dots between them. -/
def dotted (path : List Bytes) : Bytes :=
  [0x2E].intercalate path

/-- The name of a leaf: empty keys in front are left out. -/
def leafName (path : List Bytes) : Bytes :=
  dotted (path.dropWhile List.isEmpty)

/-- No key of a path holds a dot. -/
def DotFree (path : List Bytes) : Prop :=
  ∀ key ∈ path, 0x2E ∉ key

theorem dotted_cons_cons (key key' : Bytes) (path : List Bytes) :
    dotted (key :: key' :: path) = key ++ 0x2E :: dotted (key' :: path) := by
  rw [dotted, List.intercalate_cons_cons, List.append_assoc, List.singleton_append, dotted]

theorem dotted_append_cons (name key : Bytes) (path : List Bytes) :
    dotted ((name ++ 0x2E :: key) :: path) = dotted (name :: key :: path) := by
  cases path with
  | nil =>
    rw [dotted_cons_cons]
    simp only [dotted, List.intercalate_singleton]
  | cons key' path =>
    rw [dotted_cons_cons, dotted_cons_cons, dotted_cons_cons, List.append_assoc, List.cons_append]

/-- Going into objects below one that has a name. -/
theorem foldl_childName {name : Bytes} (hname : name ≠ []) (path : List Bytes) :
    path.foldl childName name = dotted (name :: path) := by
  induction path generalizing name with
  | nil => exact List.intercalate_singleton.symm
  | cons key path ih =>
    have hchild : childName name key = name ++ 0x2E :: key :=
      if_neg (by simpa using hname)
    have hne : name ++ 0x2E :: key ≠ [] :=
      List.append_ne_nil_of_right_ne_nil _ (List.cons_ne_nil _ _)
    rw [List.foldl_cons, hchild, ih hne, dotted_append_cons]

/-- Empty keys are forgotten as long as nothing stands in front of them: the name that is empty is
taken for that of the outermost object. -/
theorem foldl_childName_nil (path : List Bytes) : path.foldl childName [] = leafName path := by
  induction path with
  | nil => rfl
  | cons key path ih =>
    have hchild : childName [] key = key := rfl
    rw [List.foldl_cons, hchild, leafName]
    by_cases hkey : key = []
    · rw [hkey, ih, List.dropWhile_cons_of_pos rfl, leafName]
    · rw [foldl_childName hkey, List.dropWhile_cons_of_neg (by simpa using hkey)]

theorem leafName_cons_nil (path : List Bytes) : leafName ([] :: path) = leafName path := by
  rw [leafName, List.dropWhile_cons_of_pos rfl, leafName]

theorem leafName_cons_of_ne {key : Bytes} (hkey : key ≠ []) (path : List Bytes) :
    leafName (key :: path) = dotted (key :: path) := by
  rw [leafName, List.dropWhile_cons_of_neg (by simpa using hkey)]

theorem leafName_suffix (path : List Bytes) : leafName path <:+ dotted path := by
  induction path with
  | nil => exact List.suffix_rfl
  | cons key path ih =>
    -- only empty keys in front are left out of a name
    by_cases hkey : key = []
    · rw [hkey, leafName_cons_nil]
      cases path with
      | nil => exact ih
      | cons key' path =>
        rw [dotted_cons_cons]
        exact ih.trans (List.suffix_cons _ _)
    · exact leafName_cons_of_ne hkey path ▸ List.suffix_rfl

/-- A name joins all keys unless the path has several and starts with an empty one. -/
theorem leafName_eq_dotted_iff (path : List Bytes) :
    leafName path = dotted path ↔ path.length ≤ 1 ∨ path.head? ≠ some [] := by
  rcases path with _ | ⟨key, _ | ⟨key', path⟩⟩
  · simp [leafName]
  · by_cases hkey : key = []
    · simp [hkey, leafName, dotted]
    · simp [leafName_cons_of_ne hkey]
  · by_cases hkey : key = []
    · have hshort := (leafName_suffix (key' :: path)).length_le
      have hne : leafName ([] :: key' :: path) ≠ dotted ([] :: key' :: path) := by
        rw [leafName_cons_nil, dotted_cons_cons]
        intro heq
        rw [heq, List.nil_append, List.length_cons] at hshort
        omega
      simp [hkey, hne]
    · simp [leafName_cons_of_ne hkey, hkey]

theorem splitOn_dotted {path : List Bytes} (hpath : DotFree path) (hne : path ≠ []) :
    (dotted path).splitOn 0x2E = path :=
  List.splitOn_intercalate 0x2E hpath hne

theorem dotted_inj {path path' : List Bytes} (hpath : DotFree path) (hpath' : DotFree path')
    (hhead : path.head? ≠ some []) (hhead' : path'.head? ≠ some [])
    (h : dotted path = dotted path') : path = path' := by
  have hnil : ∀ {p : List Bytes}, DotFree p → p.head? ≠ some [] → dotted p = [] → p = [] := by
    intro p hp hphead hempty
    by_contra hne
    have hsplit := splitOn_dotted hp hne
    rw [hempty] at hsplit
    exact hphead (by rw [← hsplit]; rfl)
  by_cases hne : path = []
  · rw [hne] at h ⊢
    exact (hnil hpath' hhead' h.symm).symm
  · by_cases hne' : path' = []
    · rw [hne'] at h ⊢
      exact hnil hpath hhead h
    · rw [← splitOn_dotted hpath hne, h, splitOn_dotted hpath' hne']

theorem head?_dropWhile_isEmpty (path : List Bytes) :
    (path.dropWhile List.isEmpty).head? ≠ some [] := by
  intro h
  have hfirst := List.head?_dropWhile_not List.isEmpty path
  rw [h] at hfirst
  exact Bool.noConfusion hfirst

/-- Without dots in the keys, two names are equal when the paths differ by empty keys in front. -/
theorem leafName_eq_iff {path path' : List Bytes} (hpath : DotFree path) (hpath' : DotFree path') :
    leafName path = leafName path' ↔
      path.dropWhile List.isEmpty = path'.dropWhile List.isEmpty := by
  constructor
  · intro h
    have hdrop : ∀ {p : List Bytes}, DotFree p → DotFree (p.dropWhile List.isEmpty) :=
      fun hp key hkey => hp key ((List.dropWhile_sublist _).mem hkey)
    exact dotted_inj (hdrop hpath) (hdrop hpath') (head?_dropWhile_isEmpty path)
      (head?_dropWhile_isEmpty path') h
  · intro h
    rw [leafName, leafName, h]

/-! ### What is read -/

mutual

theorem entries_eq (v : LocatedJson) (name : Bytes) :
    entries name v = (leaves v).flatMap fun l => entries (l.1.foldl childName name) l.2 := by
  match v with
  | .object start stop members => rw [entries, leaves, memberEntries_eq members name]
  | .null _ _ => exact (List.append_nil _).symm
  | .bool _ _ => exact (List.append_nil _).symm
  | .number _ _ => exact (List.append_nil _).symm
  | .string _ _ _ => exact (List.append_nil _).symm
  | .array _ _ _ => exact (List.append_nil _).symm

theorem memberEntries_eq (members : List (Bytes × LocatedJson)) (name : Bytes) :
    memberEntries name members =
      (memberLeaves members).flatMap fun l => entries (l.1.foldl childName name) l.2 := by
  match members with
  | [] => rfl
  | (key, v) :: r =>
    rw [memberEntries, memberLeaves, List.flatMap_append, List.flatMap_map,
      entries_eq v (childName name key), memberEntries_eq r name]
    rfl

end

/-- The message of a leaf that is a string. -/
def leafMessage? (l : List Bytes × LocatedJson) : Option Compile.SourceMessage :=
  match l.2 with
  | .string _ _ content => some ⟨leafName l.1, content⟩
  | _ => none

/-- The diagnostic is about the bytes of a leaf. -/
structure Reports (id : UInt32) (content : Bytes) (l : List Bytes × LocatedJson) (d : Diagnostic) :
    Prop where
  code : d.code = .invalidMessageFile
  severity : d.severity = .error
  message : ∃ kind : String, d.message =
    s!"message {Text.quoteBytes (leafName l.1)} must be a string, got {kind}"
  file : d.primary.file = id
  start : d.primary.start.toNat = l.2.start
  stop : d.primary.stop.toNat = l.2.stop
  spells : Spells l.2.start (content.slice l.2.start l.2.stop) l.2

/-- A leaf is read as a message or as a misfit. -/
theorem entries_leaf {l : List Bytes × LocatedJson} (h : l.2.isObject = false) :
    (∃ m, entries (leafName l.1) l.2 = [.message m] ∧ leafMessage? l = some m ∧
      l.2.isString = true) ∨
    (∃ kind, entries (leafName l.1) l.2 = [.misfit ⟨leafName l.1, l.2.start, l.2.stop, kind⟩] ∧
      leafMessage? l = none ∧ l.2.isString = false) := by
  obtain ⟨path, v⟩ := l
  cases v with
  | object => cases h
  | string => exact .inl ⟨_, rfl, rfl, rfl⟩
  | null => exact .inr ⟨_, rfl, rfl, rfl⟩
  | bool => exact .inr ⟨_, rfl, rfl, rfl⟩
  | number => exact .inr ⟨_, rfl, rfl, rfl⟩
  | array => exact .inr ⟨_, rfl, rfl, rfl⟩

theorem reports_diagnostic {id : UInt32} {bs : Bytes} {found : List (List Bytes × LocatedJson)}
    (h : Stand 0 bs found) (hsize : bs.length < 2 ^ 32) {l : List Bytes × LocatedJson}
    (hl : l ∈ found) (kind : String) :
    Reports id bs l (Misfit.diagnostic id ⟨leafName l.1, l.2.start, l.2.stop, kind⟩) := by
  have hbounds := h.bounds l hl
  have hstart : l.2.start < 2 ^ 32 := by omega
  have hstop : l.2.stop < 2 ^ 32 := by omega
  exact ⟨rfl, rfl, ⟨kind, rfl⟩, rfl, Nat.mod_eq_of_lt hstart, Nat.mod_eq_of_lt hstop, h.slice hl⟩

theorem filterMap_messages {found : List (List Bytes × LocatedJson)}
    (h : ∀ l ∈ found, l.2.isObject = false) :
    (found.flatMap fun l => entries (leafName l.1) l.2).filterMap
        (fun | .message m => some m | .misfit _ => none) = found.filterMap leafMessage? := by
  induction found with
  | nil => rfl
  | cons l found ih =>
    rw [List.flatMap_cons, List.filterMap_append, ih fun l hl => h l (List.mem_cons_of_mem _ hl)]
    rcases entries_leaf (h l List.mem_cons_self) with ⟨m, hentry, hm, -⟩ | ⟨kind, hentry, hm, -⟩
    · rw [hentry, List.filterMap_cons_some hm]
      rfl
    · rw [hentry, List.filterMap_cons_none hm]
      rfl

theorem forall₂_reports {id : UInt32} {bs : Bytes} {found : List (List Bytes × LocatedJson)}
    (h : ∀ l ∈ found, l.2.isObject = false)
    (hreports : ∀ l ∈ found, ∀ kind,
      Reports id bs l (Misfit.diagnostic id ⟨leafName l.1, l.2.start, l.2.stop, kind⟩)) :
    List.Forall₂ (Reports id bs) (found.filter fun l => !l.2.isString)
      ((found.flatMap fun l => entries (leafName l.1) l.2).filterMap
        fun | .misfit m => some (m.diagnostic id) | .message _ => none) := by
  induction found with
  | nil => exact .nil
  | cons l found ih =>
    have ih := ih (fun l hl => h l (List.mem_cons_of_mem _ hl))
      fun l hl => hreports l (List.mem_cons_of_mem _ hl)
    rw [List.flatMap_cons, List.filterMap_append]
    rcases entries_leaf (h l List.mem_cons_self) with
      ⟨m, hentry, -, hstring⟩ | ⟨kind, hentry, -, hstring⟩
    · rw [hentry, List.filter_cons_of_neg (by simp [hstring])]
      exact ih
    · rw [hentry, List.filter_cons_of_pos (by simp [hstring])]
      exact .cons (hreports l List.mem_cons_self kind) ih

/-- What is read of a document goes through its leaves. -/
theorem read_document {fs : FileSet} {id : UInt32} {f : File} {start stop : Nat}
    {members : List (Bytes × LocatedJson)} (hget : fs.get? id = some f)
    (hdocument : DocumentText f.content (.object start stop members)) :
    read fs id =
      ((leaves (.object start stop members)).filterMap leafMessage?,
        ((leaves (.object start stop members)).flatMap fun l =>
          entries (leafName l.1) l.2).filterMap
            fun | .misfit m => some (m.diagnostic id) | .message _ => none) := by
  have hentries : memberEntries [] members =
      (leaves (.object start stop members)).flatMap fun l => entries (leafName l.1) l.2 := by
    rw [memberEntries_eq, leaves]
    simp only [foldl_childName_nil]
  have hread := read?_of_documentText hdocument
  rw [read, hget]
  simp only [hread, hentries]
  exact Prod.ext (filterMap_messages fun l hl => (mem_leaves_iff.mp hl).not_object) rfl

/-- Reading a document whose root is an object, of a size that spans can tell: the leaves in the
order of the text are read, each string as a message with its content, every other leaf as a
diagnostic over its bytes. A name joins the keys of the path with dots but for empty keys in front;
it joins all of them unless the path has several and starts with an empty one, and without dots in
the keys two names are equal only if the paths differ by such keys. -/
theorem read_leaves {fs : FileSet} {id : UInt32} {f : File} {start stop : Nat}
    {members : List (Bytes × LocatedJson)} (hget : fs.get? id = some f)
    (hdocument : DocumentText f.content (.object start stop members))
    (hsize : f.content.length < 2 ^ 32) :
    (∃ found : List (List Bytes × LocatedJson),
      (∀ path w, (path, w) ∈ found ↔ HasLeaf (.object start stop members) path w) ∧
      found.Pairwise (fun l l' => l.2.start < l'.2.start) ∧
      (read fs id).1 = found.filterMap leafMessage? ∧
      List.Forall₂ (Reports id f.content) (found.filter fun l => !l.2.isString) (read fs id).2) ∧
    (∀ path, leafName path = dotted path ↔ path.length ≤ 1 ∨ path.head? ≠ some []) ∧
    (∀ path path', DotFree path → DotFree path' → (leafName path = leafName path' ↔
      path.dropWhile List.isEmpty = path'.dropWhile List.isEmpty)) := by
  refine ⟨⟨leaves (.object start stop members), fun path w => mem_leaves_iff, ?_, ?_⟩,
    leafName_eq_dotted_iff, fun path path' hpath hpath' => leafName_eq_iff hpath hpath'⟩
  · exact hdocument.stand.starts_lt
  · have hobject : ∀ l ∈ leaves (.object start stop members), l.2.isObject = false :=
      fun l hl => (mem_leaves_iff.mp hl).not_object
    rw [read_document hget hdocument]
    exact ⟨rfl, forall₂_reports hobject fun l hl kind =>
      reports_diagnostic hdocument.stand hsize hl kind⟩

/-- A catalog with an empty key: `{"":{"a":"x"},"a":"y"}`. -/
def emptyKeyText : Bytes :=
  [0x7B, 0x22, 0x22, 0x3A, 0x7B, 0x22, 0x61, 0x22, 0x3A, 0x22, 0x78, 0x22, 0x7D, 0x2C, 0x22, 0x61,
    0x22, 0x3A, 0x22, 0x79, 0x22, 0x7D]

def emptyKeyRoot : LocatedJson :=
  .object 0 22 [([], .object 4 13 [([0x61], .string 9 12 [0x78])]), ([0x61], .string 18 21 [0x79])]

/-- Two messages of one name, although their paths differ. -/
theorem read_leaves_emptyKey :
    DocumentText emptyKeyText emptyKeyRoot ∧
    HasLeaf emptyKeyRoot [[], [0x61]] (.string 9 12 [0x78]) ∧
    HasLeaf emptyKeyRoot [[0x61]] (.string 18 21 [0x79]) ∧
    ∃ found : List (List Bytes × LocatedJson),
      (∀ path w, (path, w) ∈ found ↔ HasLeaf emptyKeyRoot path w) ∧
      (read ⟨[⟨0, "a.json", emptyKeyText, 0⟩], ""⟩ 0).1 = found.filterMap leafMessage? ∧
      found.filterMap leafMessage? = [⟨[0x61], [0x78]⟩, ⟨[0x61], [0x79]⟩] := by
  have hdocument : DocumentText emptyKeyText emptyKeyRoot := documentText_of_read? rfl
  have hget : (⟨[⟨0, "a.json", emptyKeyText, 0⟩], ""⟩ : FileSet).get? 0 =
      some ⟨0, "a.json", emptyKeyText, 0⟩ := rfl
  obtain ⟨⟨found, hfound, -, hmessages, -⟩, -⟩ := read_leaves hget hdocument (by decide)
  refine ⟨hdocument, mem_leaves_iff.mp ?_, mem_leaves_iff.mp ?_, found, hfound, hmessages, ?_⟩
  · exact List.mem_cons_self
  · exact List.mem_cons_of_mem _ List.mem_cons_self
  · rw [← hmessages]
    rfl

end Catalog

end Phrasebook
