import Phrasebook.Proofs.JsonTokens

/-!
The texts of documents. A text spells a value at an offset, and the value keeps where its bytes
stand. The grammar says nothing of how a text is read; the reader accepts the texts of the grammar
and no others, and answers with the value that they spell.
-/
namespace Phrasebook.LocatedJson

/-! ### The grammar -/

/-- A key with its colon. -/
def KeyText (text key : Bytes) : Prop :=
  ∃ ws body ws', Blank ws ∧ StringText body key ∧ Blank ws' ∧
    text = ws ++ 0x22 :: (body ++ 0x22 :: (ws' ++ [0x3A]))

mutual

/-- The text at an offset spells a value. -/
inductive Spells : Nat → Bytes → LocatedJson → Prop
  | nullWord (i : Nat) : Spells i (Bytes.ofText "null") (.null i (i + (Bytes.ofText "null").length))
  | trueWord (i : Nat) : Spells i (Bytes.ofText "true") (.bool i (i + (Bytes.ofText "true").length))
  | falseWord (i : Nat) :
      Spells i (Bytes.ofText "false") (.bool i (i + (Bytes.ofText "false").length))
  | number (i : Nat) {text : Bytes} : NumberText text →
      Spells i text (.number i (i + text.length))
  | string (i : Nat) {body content : Bytes} : StringText body content →
      Spells i (0x22 :: (body ++ [0x22])) (.string i (i + (body.length + 2)) content)
  | emptyArray (i : Nat) {ws : Bytes} : Blank ws →
      Spells i (0x5B :: (ws ++ [0x5D])) (.array i (i + (ws.length + 2)) [])
  | array (i : Nat) {text : Bytes} {items : List LocatedJson} : SpellsItems (i + 1) text items →
      Spells i (0x5B :: (text ++ [0x5D])) (.array i (i + (text.length + 2)) items)
  | emptyObject (i : Nat) {ws : Bytes} : Blank ws →
      Spells i (0x7B :: (ws ++ [0x7D])) (.object i (i + (ws.length + 2)) [])
  | object (i : Nat) {text : Bytes} {members : List (Bytes × LocatedJson)} :
      SpellsMembers (i + 1) text members →
      Spells i (0x7B :: (text ++ [0x7D])) (.object i (i + (text.length + 2)) members)

/-- A value with white space around it. -/
inductive Padded : Nat → Bytes → LocatedJson → Prop
  | mk (i : Nat) {ws text ws' : Bytes} {v : LocatedJson} : Blank ws → Blank ws' →
      Spells (i + ws.length) text v → Padded i (ws ++ text ++ ws') v

/-- Values with commas between them. -/
inductive SpellsItems : Nat → Bytes → List LocatedJson → Prop
  | last (i : Nat) {text : Bytes} {v : LocatedJson} : Padded i text v → SpellsItems i text [v]
  | more (i : Nat) {text rest : Bytes} {v : LocatedJson} {items : List LocatedJson} :
      Padded i text v → SpellsItems (i + text.length + 1) rest items →
      SpellsItems i (text ++ 0x2C :: rest) (v :: items)

/-- Members with commas between them. -/
inductive SpellsMembers : Nat → Bytes → List (Bytes × LocatedJson) → Prop
  | last (i : Nat) {before text key : Bytes} {v : LocatedJson} : KeyText before key →
      Padded (i + before.length) text v → SpellsMembers i (before ++ text) [(key, v)]
  | more (i : Nat) {before text rest key : Bytes} {v : LocatedJson}
      {members : List (Bytes × LocatedJson)} : KeyText before key →
      Padded (i + before.length) text v →
      SpellsMembers (i + (before ++ text).length + 1) rest members →
      SpellsMembers i (before ++ text ++ 0x2C :: rest) ((key, v) :: members)

end

/-- The whole text is a value. -/
def DocumentText (bs : Bytes) (v : LocatedJson) : Prop :=
  Padded 0 bs v

/-! ### The reader takes texts of the grammar -/

-- the equations are made once, ahead of the lemmas that rewrite with them
attribute [local simp] value? items? members?

section Sound

/-- What `value?` reads is a text of the grammar. -/
def ValueSound (fuel : Nat) : Prop :=
  ∀ ⦃p v q⦄, value? fuel p = some (v, q) →
    ∃ ws text, Blank ws ∧ Spells (p.offset + ws.length) text v ∧ p.Passes (ws ++ text) q

def ItemsSound (fuel : Nat) : Prop :=
  ∀ ⦃p items q⦄, items? fuel p = some (items, q) →
    ∃ text, SpellsItems p.offset text items ∧ p.Passes (text ++ [0x5D]) q

def MembersSound (fuel : Nat) : Prop :=
  ∀ ⦃p members q⦄, members? fuel p = some (members, q) →
    ∃ text, SpellsMembers p.offset text members ∧ p.Passes (text ++ [0x7D]) q

variable {fuel : Nat}

/-- A value and the token behind it. -/
theorem ValueSound.padded (h : ValueSound fuel) {p q r : Place} {v : LocatedJson} {b : UInt8}
    (hv : value? fuel p = some (v, q)) (hb : token? b q = some r) :
    ∃ text, Padded p.offset text v ∧ p.Passes (text ++ [b]) r := by
  obtain ⟨ws, text, hws, hspells, hpasses⟩ := h hv
  obtain ⟨ws', hws', hbehind⟩ := token?_sound hb
  refine ⟨ws ++ text ++ ws', .mk p.offset hws hws' hspells, ?_⟩
  rw [List.append_assoc]
  exact hpasses.trans hbehind

/-- A value between its brackets. -/
theorem passes_bracketed {p q : Place} {b c : UInt8} {inside r : Bytes} (hrest : p.rest = b :: r)
    (h : (p.skip 1).Passes (inside ++ [c]) q) :
    p.Passes (b :: (inside ++ [c])) q ∧ q.offset = p.offset + (inside.length + 2) := by
  have hall : p.Passes (b :: (inside ++ [c])) q :=
    (Place.passes_head (by rw [hrest]; rfl)).trans h
  refine ⟨hall, ?_⟩
  rw [hall.offset, List.length_cons, List.length_append, List.length_singleton]

theorem itemsSound_succ (hvalue : ValueSound fuel) (hitems : ItemsSound fuel) :
    ItemsSound (fuel + 1) := by
  intro p items q h
  rw [items?] at h
  obtain ⟨⟨v, r⟩, hv, h⟩ := Option.bind_eq_some_iff.mp h
  dsimp only at h
  split at h
  · next r' hclose =>
    cases h
    obtain ⟨text, hpadded, hpasses⟩ := hvalue.padded hv hclose
    exact ⟨text, .last p.offset hpadded, hpasses⟩
  · obtain ⟨r', hcomma, h⟩ := Option.bind_eq_some_iff.mp h
    obtain ⟨⟨vs, q'⟩, hvs, h⟩ := Option.bind_eq_some_iff.mp h
    cases h
    obtain ⟨text, hpadded, hpasses⟩ := hvalue.padded hv hcomma
    obtain ⟨rest, hrest, hpasses'⟩ := hitems hvs
    rw [hpasses.offset, List.length_append, ← Nat.add_assoc] at hrest
    refine ⟨text ++ 0x2C :: rest, .more p.offset hpadded hrest, ?_⟩
    have htext : text ++ 0x2C :: rest ++ [0x5D] = text ++ [0x2C] ++ (rest ++ [0x5D]) := by simp
    rw [htext]
    exact hpasses.trans hpasses'

theorem membersSound_succ (hvalue : ValueSound fuel) (hmembers : MembersSound fuel) :
    MembersSound (fuel + 1) := by
  intro p members q h
  rw [members?] at h
  obtain ⟨p₁, hquote, h⟩ := Option.bind_eq_some_iff.mp h
  obtain ⟨⟨key, n⟩, hkey, h⟩ := Option.bind_eq_some_iff.mp h
  obtain ⟨p₂, hcolon, h⟩ := Option.bind_eq_some_iff.mp h
  obtain ⟨⟨v, r⟩, hv, h⟩ := Option.bind_eq_some_iff.mp h
  -- the key
  obtain ⟨before, hbefore, hp₂⟩ : ∃ before, KeyText before key ∧ p.Passes before p₂ := by
    obtain ⟨ws, hws, hopen⟩ := token?_sound hquote
    obtain ⟨body, rest, hrest, rfl, hbody⟩ := string?_sound hkey
    obtain ⟨ws', hws', hbehind⟩ := token?_sound hcolon
    have hclose : p₁.Passes (body ++ [0x22]) (p₁.skip (body ++ [(0x22 : UInt8)]).length) :=
      Place.passes_skip (r := rest) (by rw [hrest, List.append_assoc]; rfl)
    rw [List.length_append, List.length_singleton] at hclose
    refine ⟨_, ⟨ws, body, ws', hws, hbody, hws', rfl⟩, ?_⟩
    have htext : ws ++ 0x22 :: (body ++ 0x22 :: (ws' ++ [0x3A])) =
        ws ++ [0x22] ++ (body ++ [0x22] ++ (ws' ++ [0x3A])) := by simp
    rw [htext]
    exact hopen.trans (hclose.trans hbehind)
  dsimp only at h
  split at h
  · next r' hclose =>
    cases h
    obtain ⟨text, hpadded, hpasses⟩ := hvalue.padded hv hclose
    rw [hp₂.offset] at hpadded
    refine ⟨before ++ text, .last p.offset hbefore hpadded, ?_⟩
    rw [List.append_assoc]
    exact hp₂.trans hpasses
  · obtain ⟨r', hcomma, h⟩ := Option.bind_eq_some_iff.mp h
    obtain ⟨⟨vs, q'⟩, hvs, h⟩ := Option.bind_eq_some_iff.mp h
    cases h
    obtain ⟨text, hpadded, hpasses⟩ := hvalue.padded hv hcomma
    obtain ⟨rest, hrest, hpasses'⟩ := hmembers hvs
    rw [hp₂.offset] at hpadded
    have hoffset : r'.offset = p.offset + (before ++ text).length + 1 := by
      rw [hpasses.offset, hp₂.offset]
      simp only [List.length_append, List.length_singleton]
      omega
    rw [hoffset] at hrest
    refine ⟨before ++ text ++ 0x2C :: rest, .more p.offset hbefore hpadded hrest, ?_⟩
    have htext : before ++ text ++ 0x2C :: rest ++ [0x7D] =
        before ++ (text ++ [0x2C] ++ (rest ++ [0x7D])) := by simp
    rw [htext]
    exact hp₂.trans (hpasses.trans hpasses')

theorem valueSound_succ (hitems : ItemsSound fuel) (hmembers : MembersSound fuel) :
    ValueSound (fuel + 1) := by
  intro p v q h
  rw [value?] at h
  obtain ⟨ws, hws, hspace⟩ := passes_skipSpace p
  generalize p.skipSpace = p' at h hspace
  suffices hvalue : ∃ text, Spells p'.offset text v ∧ p'.Passes text q by
    obtain ⟨text, hspells, hpasses⟩ := hvalue
    exact ⟨ws, text, hws, hspace.offset ▸ hspells, hspace.trans hpasses⟩
  dsimp only at h
  -- the first byte decides which form it is
  split at h
  · cases h
  · next r hrest =>
    obtain ⟨⟨content, n⟩, hcontent, h⟩ := Option.bind_eq_some_iff.mp h
    cases h
    obtain ⟨body, rest, rfl, rfl, hbody⟩ := string?_sound hcontent
    have hpasses : p'.Passes (0x22 :: (body ++ [0x22])) (p'.skip (body.length + 2)) := by
      have hlength : (0x22 :: (body ++ [(0x22 : UInt8)])).length = body.length + 2 := by simp
      rw [← hlength]
      exact Place.passes_skip (r := rest) (by rw [hrest]; simp)
    exact ⟨_, .string p'.offset hbody, hpasses⟩
  · next r hrest =>
    split at h
    · next q' hclose =>
      cases h
      obtain ⟨ws', hws', hpasses⟩ := token?_sound hclose
      obtain ⟨hall, hstop⟩ := passes_bracketed hrest hpasses
      exact ⟨_, hstop ▸ .emptyArray p'.offset hws', hall⟩
    · obtain ⟨⟨items, q'⟩, hread, h⟩ := Option.bind_eq_some_iff.mp h
      cases h
      obtain ⟨text, htext, hpasses⟩ := hitems hread
      obtain ⟨hall, hstop⟩ := passes_bracketed hrest hpasses
      exact ⟨_, hstop ▸ .array p'.offset htext, hall⟩
  · next r hrest =>
    split at h
    · next q' hclose =>
      cases h
      obtain ⟨ws', hws', hpasses⟩ := token?_sound hclose
      obtain ⟨hall, hstop⟩ := passes_bracketed hrest hpasses
      exact ⟨_, hstop ▸ .emptyObject p'.offset hws', hall⟩
    · obtain ⟨⟨members, q'⟩, hread, h⟩ := Option.bind_eq_some_iff.mp h
      cases h
      obtain ⟨text, htext, hpasses⟩ := hmembers hread
      obtain ⟨hall, hstop⟩ := passes_bracketed hrest hpasses
      exact ⟨_, hstop ▸ .object p'.offset htext, hall⟩
  · obtain ⟨q', hword, h⟩ := Option.map_eq_some_iff.mp h
    cases h
    have hpasses := word?_eq_some_iff.mp hword
    exact ⟨_, hpasses.offset ▸ .trueWord p'.offset, hpasses⟩
  · obtain ⟨q', hword, h⟩ := Option.map_eq_some_iff.mp h
    cases h
    have hpasses := word?_eq_some_iff.mp hword
    exact ⟨_, hpasses.offset ▸ .falseWord p'.offset, hpasses⟩
  · obtain ⟨q', hword, h⟩ := Option.map_eq_some_iff.mp h
    cases h
    have hpasses := word?_eq_some_iff.mp hword
    exact ⟨_, hpasses.offset ▸ .nullWord p'.offset, hpasses⟩
  · obtain ⟨q', hnumber, h⟩ := Option.map_eq_some_iff.mp h
    cases h
    obtain ⟨text, htext, hpasses⟩ := number?_sound hnumber
    exact ⟨text, hpasses.offset ▸ .number p'.offset htext, hpasses⟩

/-- The three readers together, by the fuel. -/
theorem readers_sound (fuel : Nat) : ValueSound fuel ∧ ItemsSound fuel ∧ MembersSound fuel := by
  induction fuel with
  | zero =>
    refine ⟨fun p v q h => ?_, fun p items q h => ?_, fun p members q h => ?_⟩
    · exact nomatch h
    · exact nomatch h
    · exact nomatch h
  | succ fuel ih =>
    obtain ⟨hvalue, hitems, hmembers⟩ := ih
    exact ⟨valueSound_succ hitems hmembers, itemsSound_succ hvalue hitems,
      membersSound_succ hvalue hmembers⟩

theorem documentText_of_read? {bs : Bytes} {v : LocatedJson} (h : read? bs = some v) :
    DocumentText bs v := by
  rw [read?] at h
  obtain ⟨⟨v', p⟩, hv, h⟩ := Option.bind_eq_some_iff.mp h
  dsimp only at h
  split at h
  · next hend =>
    cases h
    obtain ⟨ws, text, hws, hspells, hpasses⟩ := (readers_sound _).1 hv
    obtain ⟨ws', hws', hbehind⟩ := passes_skipSpace p
    have hrest : bs = ws ++ text ++ ws' := by
      have hall := (hpasses.trans hbehind).rest
      rw [List.isEmpty_iff.mp hend, List.append_nil] at hall
      exact hall
    rw [DocumentText, hrest]
    exact .mk 0 hws hws' hspells
  · cases h

end Sound

/-! ### The reader takes every text of the grammar -/

section Complete

/-- `value?` reads the texts of the grammar that are not longer than half the fuel. -/
def ValueComplete (fuel : Nat) : Prop :=
  ∀ ⦃p q ws text v⦄, Blank ws → Spells (p.offset + ws.length) text v →
    p.Passes (ws ++ text) q → Ended q.rest → 2 * text.length ≤ fuel → value? fuel p = some (v, q)

def ItemsComplete (fuel : Nat) : Prop :=
  ∀ ⦃p q text items⦄, SpellsItems p.offset text items → p.Passes (text ++ [0x5D]) q →
    2 * text.length + 1 ≤ fuel → items? fuel p = some (items, q)

def MembersComplete (fuel : Nat) : Prop :=
  ∀ ⦃p q text members⦄, SpellsMembers p.offset text members → p.Passes (text ++ [0x7D]) q →
    2 * text.length + 1 ≤ fuel → members? fuel p = some (members, q)

/-! How `value?` goes on at the first byte of a value. -/

section Dispatch

variable {fuel : Nat} {p q : Place} {r : Bytes}

theorem value?_string {content : Bytes} {n : Nat} (h : p.skipSpace.rest = 0x22 :: r)
    (hread : string? r = some (content, n)) :
    value? (fuel + 1) p =
      some (.string p.skipSpace.offset (p.skipSpace.skip (n + 1)).offset content,
        p.skipSpace.skip (n + 1)) := by
  simp [h, hread]

theorem value?_emptyArray (h : p.skipSpace.rest = 0x5B :: r)
    (hread : token? 0x5D (p.skipSpace.skip 1) = some q) :
    value? (fuel + 1) p = some (.array p.skipSpace.offset q.offset [], q) := by
  simp [h, hread]

theorem value?_array {items : List LocatedJson} (h : p.skipSpace.rest = 0x5B :: r)
    (hopen : token? 0x5D (p.skipSpace.skip 1) = none)
    (hread : items? fuel (p.skipSpace.skip 1) = some (items, q)) :
    value? (fuel + 1) p = some (.array p.skipSpace.offset q.offset items, q) := by
  simp [h, hopen, hread]

theorem value?_emptyObject (h : p.skipSpace.rest = 0x7B :: r)
    (hread : token? 0x7D (p.skipSpace.skip 1) = some q) :
    value? (fuel + 1) p = some (.object p.skipSpace.offset q.offset [], q) := by
  simp [h, hread]

theorem value?_object {members : List (Bytes × LocatedJson)} (h : p.skipSpace.rest = 0x7B :: r)
    (hopen : token? 0x7D (p.skipSpace.skip 1) = none)
    (hread : members? fuel (p.skipSpace.skip 1) = some (members, q)) :
    value? (fuel + 1) p = some (.object p.skipSpace.offset q.offset members, q) := by
  simp [h, hopen, hread]

theorem value?_null (h : p.skipSpace.rest = 0x6E :: r) (hread : word? "null" p.skipSpace = some q) :
    value? (fuel + 1) p = some (.null p.skipSpace.offset q.offset, q) := by
  simp [h, hread]

theorem value?_true (h : p.skipSpace.rest = 0x74 :: r) (hread : word? "true" p.skipSpace = some q) :
    value? (fuel + 1) p = some (.bool p.skipSpace.offset q.offset, q) := by
  simp [h, hread]

theorem value?_false (h : p.skipSpace.rest = 0x66 :: r)
    (hread : word? "false" p.skipSpace = some q) :
    value? (fuel + 1) p = some (.bool p.skipSpace.offset q.offset, q) := by
  simp [h, hread]

theorem value?_number {b : UInt8} (h : p.skipSpace.rest = b :: r)
    (hb : b = 0x2D ∨ isDigit b = true) (hread : number? p.skipSpace = some q) :
    value? (fuel + 1) p = some (.number p.skipSpace.offset q.offset, q) := by
  have hne : ∀ c : UInt8, isDigit c = false → c ≠ 0x2D → ∀ r', p.skipSpace.rest ≠ c :: r' := by
    intro c hdigit hminus r' hrest
    rw [h] at hrest
    obtain ⟨rfl, -⟩ := List.cons.inj hrest
    rcases hb with rfl | hb
    · exact hminus rfl
    · rw [hdigit] at hb
      cases hb
  rw [value?]
  dsimp only
  split
  · next hnil =>
    rw [h] at hnil
    cases hnil
  · next hrest => exact absurd hrest (hne 0x22 (by decide) (by decide) _)
  · next hrest => exact absurd hrest (hne 0x5B (by decide) (by decide) _)
  · next hrest => exact absurd hrest (hne 0x7B (by decide) (by decide) _)
  · next hrest => exact absurd hrest (hne 0x74 (by decide) (by decide) _)
  · next hrest => exact absurd hrest (hne 0x66 (by decide) (by decide) _)
  · next hrest => exact absurd hrest (hne 0x6E (by decide) (by decide) _)
  · rw [hread]
    rfl

end Dispatch

/-- A value starts with none of the bytes that end one. -/
theorem NumberText.head {text : Bytes} (h : NumberText text) :
    ∃ b r, text = b :: r ∧ (b = 0x2D ∨ isDigit b = true) := by
  obtain ⟨sign, whole, fraction, exponent, hsign, hwhole, -, -, rfl⟩ := h
  obtain ⟨b, r, rfl, hb⟩ := hwhole.head
  rcases (by simpa using hsign : sign = [] ∨ sign = [0x2D]) with rfl | rfl
  · exact ⟨b, _, rfl, .inr hb⟩
  · exact ⟨0x2D, _, rfl, .inl rfl⟩

theorem ofText_null : Bytes.ofText "null" = [0x6E, 0x75, 0x6C, 0x6C] := by decide +kernel

theorem ofText_true : Bytes.ofText "true" = [0x74, 0x72, 0x75, 0x65] := by decide +kernel

theorem ofText_false : Bytes.ofText "false" = [0x66, 0x61, 0x6C, 0x73, 0x65] := by decide +kernel

theorem Spells.head {i : Nat} {text : Bytes} {v : LocatedJson} (h : Spells i text v) :
    ∃ b r, text = b :: r ∧ isSpace b = false ∧ b ≠ 0x5D := by
  cases h with
  | nullWord => exact ⟨0x6E, _, ofText_null, by decide, by decide⟩
  | trueWord => exact ⟨0x74, _, ofText_true, by decide, by decide⟩
  | falseWord => exact ⟨0x66, _, ofText_false, by decide, by decide⟩
  | string => exact ⟨0x22, _, rfl, by decide, by decide⟩
  | emptyArray => exact ⟨0x5B, _, rfl, by decide, by decide⟩
  | array => exact ⟨0x5B, _, rfl, by decide, by decide⟩
  | emptyObject => exact ⟨0x7B, _, rfl, by decide, by decide⟩
  | object => exact ⟨0x7B, _, rfl, by decide, by decide⟩
  | number _ htext =>
    obtain ⟨b, r, rfl, hb⟩ := htext.head
    refine ⟨b, r, rfl, ?_, ?_⟩
    · by_contra hspace
      have hspace : b = 0x20 ∨ b = 0x09 ∨ b = 0x0A ∨ b = 0x0D := by
        rw [Bool.not_eq_false] at hspace
        simpa [isSpace, or_assoc] using hspace
      rcases hspace with rfl | rfl | rfl | rfl <;> exact absurd hb (by decide)
    · rintro rfl
      exact absurd hb (by decide)

/-- What follows a value between brackets or commas ends it. -/
theorem ended_blank {ws r : Bytes} {b : UInt8} (hws : Blank ws)
    (hb : b = 0x2C ∨ b = 0x5D ∨ b = 0x7D) : Ended (ws ++ b :: r) := by
  rcases ws with _ | ⟨c, ws⟩
  · intro d hd
    cases hd
    exact .inr hb
  · intro d hd
    cases hd
    exact .inl (hws _ List.mem_cons_self)

section Steps

variable {fuel : Nat}

/-- A value is read up to the white space behind it. -/
theorem ValueComplete.padded (hvalue : ValueComplete fuel) {p q : Place} {text : Bytes}
    {v : LocatedJson} {b : UInt8} (hb : b = 0x2C ∨ b = 0x5D ∨ b = 0x7D)
    (hpadded : Padded p.offset text v) (h : p.Passes (text ++ [b]) q)
    (hfuel : 2 * text.length ≤ fuel) :
    ∃ m ws, Blank ws ∧ value? fuel p = some (v, m) ∧ m.Passes (ws ++ [b]) q := by
  obtain ⟨_, hws, hws', hspells⟩ := hpadded
  rename_i ws text ws'
  rw [List.append_assoc] at h
  obtain ⟨hvalue', hbehind⟩ := h.split
  refine ⟨_, ws', hws', hvalue hws hspells hvalue' ?_ ?_, hbehind⟩
  · rw [hbehind.rest, List.append_assoc]
    exact ended_blank hws' hb
  · simp only [List.length_append] at hfuel
    omega

/-- What stands between brackets. -/
theorem Place.Passes.bracketed {p q : Place} {b c : UInt8} {inside : Bytes}
    (h : p.Passes (b :: (inside ++ [c])) q) :
    p.rest = b :: (inside ++ [c] ++ q.rest) ∧ (p.skip 1).Passes (inside ++ [c]) q ∧
      p.offset + (inside.length + 2) = q.offset := by
  have hparts : p.Passes ([b] ++ (inside ++ [c])) q := h
  refine ⟨h.rest, hparts.split.2, ?_⟩
  rw [h.offset, List.length_cons, List.length_append, List.length_singleton]

theorem itemsComplete_succ (hvalue : ValueComplete fuel) (hitems : ItemsComplete fuel) :
    ItemsComplete (fuel + 1) := by
  intro p q text items hspells h hfuel
  cases hspells with
  | last _ hpadded =>
    obtain ⟨m, ws, hws, hread, hbehind⟩ := hvalue.padded (by decide) hpadded h (by omega)
    have hclose : token? 0x5D m = some q := token?_of_passes (by decide) hws hbehind
    simp only [items?, hread, hclose, Option.bind_eq_bind, Option.bind_some, Option.pure_def]
  | @more _ text rest v items hpadded hrest =>
    rw [List.length_append, List.length_cons] at hfuel
    have htext : text ++ 0x2C :: rest ++ [0x5D] = text ++ [0x2C] ++ (rest ++ [0x5D]) := by simp
    rw [htext] at h
    obtain ⟨hvalue', hmore⟩ := h.split
    obtain ⟨m, ws, hws, hread, hbehind⟩ := hvalue.padded (by decide) hpadded hvalue' (by omega)
    have hopen : token? 0x5D m = none := token?_eq_none (by decide) (by decide) hws hbehind
    have hcomma := token?_of_passes (by decide) hws hbehind
    have hreads : items? fuel (p.skip (text ++ [0x2C]).length) = some (items, q) := by
      refine hitems ?_ hmore (by omega)
      rw [Nat.add_assoc] at hrest
      simpa only [Place.skip, List.length_append, List.length_singleton] using hrest
    simp only [items?, hread, hopen, hcomma, hreads, Option.bind_eq_bind, Option.bind_some,
      Option.pure_def]

/-- A key is read up to its colon. -/
theorem key_of_passes {p q : Place} {text key : Bytes} (hkey : KeyText text key)
    (h : p.Passes text q) : ∃ m n, token? 0x22 p = some m ∧ string? m.rest = some (key, n) ∧
      token? 0x3A (m.skip n) = some q := by
  obtain ⟨ws, body, ws', hws, hbody, hws', rfl⟩ := hkey
  have htext : ws ++ 0x22 :: (body ++ 0x22 :: (ws' ++ [0x3A])) =
      ws ++ [0x22] ++ (body ++ [0x22] ++ (ws' ++ [0x3A])) := by simp
  rw [htext] at h
  obtain ⟨hopen, h⟩ := h.split
  obtain ⟨hclose, hcolon⟩ := h.split
  refine ⟨_, body.length + 1, token?_of_passes (by decide) hws hopen, ?_, ?_⟩
  · rw [hclose.rest, List.append_assoc]
    exact string?_of_text hbody _
  · have hlength : (body ++ [(0x22 : UInt8)]).length = body.length + 1 := List.length_append
    rw [hlength] at hcolon
    exact token?_of_passes (by decide) hws' hcolon

theorem membersComplete_succ (hvalue : ValueComplete fuel) (hmembers : MembersComplete fuel) :
    MembersComplete (fuel + 1) := by
  intro p q text members hspells h hfuel
  cases hspells with
  | @last _ before text key v hkey hpadded =>
    rw [List.length_append] at hfuel
    rw [List.append_assoc] at h
    obtain ⟨hbefore, h⟩ := h.split
    obtain ⟨m, n, hquote, hread, hcolon⟩ := key_of_passes hkey hbefore
    obtain ⟨m', ws, hws, hread', hbehind⟩ := hvalue.padded (by decide) hpadded h (by omega)
    have hclose : token? 0x7D m' = some q := token?_of_passes (by decide) hws hbehind
    simp only [members?, hquote, hread, hcolon, hread', hclose, Option.bind_eq_bind,
      Option.bind_some, Option.pure_def]
  | @more _ before text rest key v members hkey hpadded hrest =>
    rw [List.length_append, List.length_append, List.length_cons] at hfuel
    have htext : before ++ text ++ 0x2C :: rest ++ [0x7D] =
        before ++ (text ++ [0x2C] ++ (rest ++ [0x7D])) := by simp
    rw [htext] at h
    obtain ⟨hbefore, h⟩ := h.split
    obtain ⟨hvalue', hmore⟩ := h.split
    obtain ⟨m, n, hquote, hread, hcolon⟩ := key_of_passes hkey hbefore
    obtain ⟨m', ws, hws, hread', hbehind⟩ := hvalue.padded (by decide) hpadded hvalue' (by omega)
    -- a comma follows, so the object is not closed here
    have hopen : token? 0x7D m' = none := token?_eq_none (by decide) (by decide) hws hbehind
    have hcomma := token?_of_passes (by decide) hws hbehind
    have hreads : members? fuel ((p.skip before.length).skip (text ++ [0x2C]).length) =
        some (members, q) := by
      refine hmembers ?_ hmore (by omega)
      have hoffset : p.offset + (before ++ text).length + 1 =
          p.offset + before.length + (text ++ [0x2C]).length := by
        simp only [List.length_append, List.length_singleton]
        omega
      rw [hoffset] at hrest
      exact hrest
    simp only [members?, hquote, hread, hcolon, hread', hopen, hcomma, hreads,
      Option.bind_eq_bind, Option.bind_some, Option.pure_def]

/-- Items start with something other than the bracket that closes an array. -/
theorem SpellsItems.head {i : Nat} {text : Bytes} {items : List LocatedJson}
    (h : SpellsItems i text items) :
    ∃ ws b r, Blank ws ∧ text = ws ++ b :: r ∧ isSpace b = false ∧ b ≠ 0x5D := by
  have hpadded : ∀ {text v}, Padded i text v →
      ∃ ws b r, Blank ws ∧ text = ws ++ b :: r ∧ isSpace b = false ∧ b ≠ 0x5D := by
    rintro _ v ⟨_, hws, -, hspells⟩
    obtain ⟨b, r, rfl, hspace, hbracket⟩ := hspells.head
    exact ⟨_, b, _, hws, by rw [List.append_assoc, List.cons_append], hspace, hbracket⟩
  cases h with
  | last _ h => exact hpadded h
  | more _ h _ =>
    obtain ⟨ws, b, r, hws, rfl, hspace, hbracket⟩ := hpadded h
    exact ⟨ws, b, _, hws, by rw [List.append_assoc, List.cons_append], hspace, hbracket⟩

/-- Members start with a quote. -/
theorem SpellsMembers.head {i : Nat} {text : Bytes} {members : List (Bytes × LocatedJson)}
    (h : SpellsMembers i text members) : ∃ ws r, Blank ws ∧ text = ws ++ 0x22 :: r := by
  cases h with
  | last _ hkey _ =>
    obtain ⟨ws, body, ws', hws, -, -, rfl⟩ := hkey
    exact ⟨ws, _, hws, by rw [List.append_assoc, List.cons_append]⟩
  | more _ hkey _ _ =>
    obtain ⟨ws, body, ws', hws, -, -, rfl⟩ := hkey
    exact ⟨ws, _, hws, by rw [List.append_assoc, List.append_assoc, List.cons_append]⟩

theorem valueComplete_succ (hitems : ItemsComplete fuel) (hmembers : MembersComplete fuel) :
    ValueComplete (fuel + 1) := by
  intro p q ws text v hws hspells h hend hfuel
  obtain ⟨hbefore, h⟩ := h.split
  -- no value starts with white space, so what is skipped is just what stands in front
  have hspace : p.skipSpace = p.skip ws.length := by
    apply skipSpace_eq hws hbefore
    obtain ⟨b, r, rfl, hb, -⟩ := hspells.head
    rw [h.head]
    rintro _ ⟨⟩
    exact hb
  have hoffset : p.offset + ws.length = p.skipSpace.offset := by rw [hspace, Place.skip]
  rw [← hspace] at h
  rw [hoffset] at hspells
  have hstop : p.skipSpace.offset + text.length = q.offset := h.offset.symm
  cases hspells with
  | nullWord =>
    have hrest := h.rest
    rw [ofText_null, List.cons_append] at hrest
    rw [hstop, value?_null hrest (word?_eq_some_iff.mpr h)]
  | trueWord =>
    have hrest := h.rest
    rw [ofText_true, List.cons_append] at hrest
    rw [hstop, value?_true hrest (word?_eq_some_iff.mpr h)]
  | falseWord =>
    have hrest := h.rest
    rw [ofText_false, List.cons_append] at hrest
    rw [hstop, value?_false hrest (word?_eq_some_iff.mpr h)]
  | number _ htext =>
    obtain ⟨b, r, hcons, hb⟩ := htext.head
    have hrest : p.skipSpace.rest = b :: (r ++ q.rest) := by rw [h.rest, hcons, List.cons_append]
    rw [hstop, value?_number hrest hb (number?_of_passes htext h hend)]
  | @string _ body content hbody =>
    have hrest := h.rest
    rw [List.cons_append, List.append_assoc] at hrest
    rw [List.length_cons, List.length_append, List.length_singleton] at hstop
    have hq : p.skipSpace.skip (body.length + 1 + 1) = q := by
      rw [h.eq_skip, List.length_cons, List.length_append, List.length_singleton]
    rw [value?_string hrest (string?_of_text hbody q.rest), hq, hstop]
  | emptyArray _ hws' =>
    obtain ⟨hrest, hinside, hstop⟩ := h.bracketed
    rw [value?_emptyArray hrest (token?_of_passes (by decide) hws' hinside), hstop]
  | array _ hitems' =>
    obtain ⟨hrest, hinside, hstop⟩ := h.bracketed
    rw [List.length_cons, List.length_append, List.length_singleton] at hfuel
    have hopen : token? 0x5D (p.skipSpace.skip 1) = none := by
      obtain ⟨ws', b, r, hws', rfl, hspace', hbracket⟩ := hitems'.head
      rw [List.append_assoc, List.cons_append] at hinside
      exact token?_eq_none hspace' hbracket hws' hinside
    rw [value?_array hrest hopen (hitems hitems' hinside (by omega)), hstop]
  | emptyObject _ hws' =>
    obtain ⟨hrest, hinside, hstop⟩ := h.bracketed
    rw [value?_emptyObject hrest (token?_of_passes (by decide) hws' hinside), hstop]
  | object _ hmembers' =>
    obtain ⟨hrest, hinside, hstop⟩ := h.bracketed
    rw [List.length_cons, List.length_append, List.length_singleton] at hfuel
    have hopen : token? 0x7D (p.skipSpace.skip 1) = none := by
      obtain ⟨ws', r, hws', rfl⟩ := hmembers'.head
      rw [List.append_assoc, List.cons_append] at hinside
      exact token?_eq_none (by decide) (by decide) hws' hinside
    rw [value?_object hrest hopen (hmembers hmembers' hinside (by omega)), hstop]

end Steps

/-- The three readers together, by the fuel. -/
theorem readers_complete (fuel : Nat) :
    ValueComplete fuel ∧ ItemsComplete fuel ∧ MembersComplete fuel := by
  induction fuel with
  | zero =>
    refine ⟨fun p q ws text v _ hspells _ _ hfuel => ?_, fun p q text items _ _ hfuel => ?_,
      fun p q text members _ _ hfuel => ?_⟩
    · obtain ⟨b, r, rfl, -⟩ := hspells.head
      rw [List.length_cons] at hfuel
      omega
    · omega
    · omega
  | succ fuel ih =>
    obtain ⟨hvalue, hitems, hmembers⟩ := ih
    exact ⟨valueComplete_succ hitems hmembers, itemsComplete_succ hvalue hitems,
      membersComplete_succ hvalue hmembers⟩

theorem read?_of_documentText {bs : Bytes} {v : LocatedJson} (h : DocumentText bs v) :
    read? bs = some v := by
  obtain ⟨_, hws, hws', hspells⟩ := h
  rename_i ws text ws'
  have hall : (⟨0, ws ++ text ++ ws'⟩ : Place).Passes (ws ++ text)
      ⟨(ws ++ text).length, ws'⟩ := ⟨rfl, (Nat.zero_add _).symm⟩
  have hend : Ended ws' := by
    intro b hb
    exact .inl (hws' b (List.mem_of_mem_head? hb))
  have hfuel : 2 * text.length ≤ 2 * (ws ++ text ++ ws').length + 2 := by
    simp only [List.length_append]
    omega
  have hread := (readers_complete _).1 hws hspells hall hend hfuel
  have hskip : (⟨(ws ++ text).length, ws'⟩ : Place).skipSpace.rest = [] := by
    have hpasses : (⟨(ws ++ text).length, ws'⟩ : Place).Passes ws'
        ⟨(ws ++ text).length + ws'.length, []⟩ := ⟨(List.append_nil ws').symm, rfl⟩
    rw [skipSpace_eq hws' hpasses fun b hb => nomatch hb]
  rw [read?, hread]
  simp only [Option.bind_eq_bind, Option.bind_some, hskip, List.isEmpty_nil, if_true]

end Complete

/-- The reader accepts the documents of the grammar, and answers with what they spell. -/
theorem read?_eq_some_iff {bs : Bytes} {v : LocatedJson} : read? bs = some v ↔ DocumentText bs v :=
  ⟨documentText_of_read?, read?_of_documentText⟩

/-- A text spells one value. -/
theorem DocumentText.unique {bs : Bytes} {v w : LocatedJson} (h : DocumentText bs v)
    (h' : DocumentText bs w) : v = w :=
  Option.some.inj ((read?_of_documentText h).symm.trans (read?_of_documentText h'))

end Phrasebook.LocatedJson
