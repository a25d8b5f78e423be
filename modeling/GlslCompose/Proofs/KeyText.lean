/-
`Proofs/KeyText.lean` -- what is digested when a compiled text is looked for, and that
it tells apart what it should.

A library keeps compiled texts by the digest of a JSON text (`Library.keyText`). A
digest of 64 bits cannot be injective, so everything that follows is about runs in which
it does not happen to give two of the digested texts the same number
(`Digest.CollisionFree`). That is all that is ever assumed: from the JSON texts on there
is nothing left to assume, since they determine what they were made from.

There is one thing to watch. The names of defines are not checked before the key is
made, so the names in a key need not be texts. But a source that was compiled has had
its defines written into it, and that checks them (`textNames_of_injectDefines_ok`). So
of two sources with the same key text it is enough that one was compiled.
-/
import GlslCompose.Proofs.JsonReading
import GlslCompose.Library

set_option autoImplicit false

namespace GlslCompose

/-- **No two of some texts have the same digest.** -/
def Digest.CollisionFree (texts : List Text) : Prop :=
  ∀ s ∈ texts, ∀ t ∈ texts, Digest.ofText s = Digest.ofText t → s = t

theorem Digest.CollisionFree.mono {texts more : List Text} (h : Digest.CollisionFree more)
    (hsub : texts ⊆ more) : Digest.CollisionFree texts :=
  fun s hs t ht => h s (hsub hs) t (hsub ht)

/-- Only the digests of different texts have to be compared. -/
theorem Digest.collisionFree_iff (texts : List Text) :
    Digest.CollisionFree texts ↔
      ∀ s ∈ texts, ∀ t ∈ texts, s = t ∨ Digest.ofText s ≠ Digest.ofText t := by
  refine ⟨fun h s hs t ht => ?_, fun h s hs t ht he => ?_⟩
  · by_cases he : s = t
    · exact .inl he
    · exact .inr fun hdigest => he (h s hs t ht hdigest)
  · rcases h s hs t ht with h | h
    · exact h
    · exact absurd he h

instance (texts : List Text) : Decidable (Digest.CollisionFree texts) :=
  decidable_of_iff' _ (Digest.collisionFree_iff texts)

/-! ## Groups -/

namespace Value

/-- A list with commas between its items, seen as its first item and the others each behind a
comma. -/
theorem intercalate_comma_cons (part : Text) (parts : List Text) :
    List.intercalate [','] (part :: parts) = part ++ parts.flatMap (',' :: ·) := by
  induction parts generalizing part with
  | nil => simp [List.intercalate]
  | cons next parts ih =>
    rw [List.intercalate_cons_cons, ih, List.flatMap_cons]
    simp

/-- A group with something behind it. -/
theorem jsonGroup_cons_append (left right : Char) (part : Text) (parts : List Text) (r : Text) :
    jsonGroup left right (part :: parts) ++ r
      = left :: (part ++ (parts.flatMap (',' :: ·) ++ right :: r)) := by
  rw [jsonGroup, intercalate_comma_cons]
  simp

theorem jsonGroup_nil_append (left right : Char) (r : Text) :
    jsonGroup left right [] ++ r = left :: right :: r := rfl

end Value

/-! ## Defines in a key -/

namespace ActiveDefines

open Value

/-- Defines whose names are all texts. -/
def TextNames (active : ActiveDefines) : Prop :=
  ∃ pairs : List (Text × Text), active = pairs.map fun pair => (.text pair.1, pair.2)

/-- The values of which a key lists the defines. -/
def keyItems (active : ActiveDefines) : List Value :=
  active.map fun (name, value) => .list [name, .text value]

/-- What a key says of one define. -/
def keyPart (name value : Text) : Text := jsonGroup '[' ']' [name, jsonText value]

theorem jsonItems_keyItems_nil : jsonItems (keyItems []) = .ok [] := rfl

theorem jsonItems_keyItems_cons {name : Value} {value : Text} {active : ActiveDefines}
    {parts : List Text} (h : jsonItems (keyItems ((name, value) :: active)) = .ok parts) :
    ∃ nameText rest, name.json = .ok nameText ∧ jsonItems (keyItems active) = .ok rest ∧
      parts = keyPart nameText value :: rest := by
  simp only [keyItems, List.map_cons, jsonItems, json, bind, Except.bind, pure, Except.pure] at h
  cases hname : name.json with
  | error problem => simp [hname, Except.map] at h
  | ok nameText =>
    simp only [hname, Except.map] at h
    cases hrest : jsonItems (keyItems active) with
    | error problem => rw [keyItems] at hrest; simp [hrest] at h
    | ok rest =>
      rw [keyItems] at hrest
      simp only [hrest, Except.ok.injEq] at h
      exact ⟨nameText, rest, rfl, rfl, h.symm⟩

/-- What a key says of a define with a text as its name is read back. -/
theorem keyPart_append_inj {name value other : Text} {otherName : Value} {otherText r s : Text}
    (hname : otherName.json = .ok otherText)
    (h : keyPart (jsonText name) value ++ r = keyPart otherText other ++ s) :
    otherName = .text name ∧ value = other ∧ r = s := by
  simp only [keyPart, jsonGroup_cons_append, List.flatMap_cons, List.flatMap_nil, List.cons_append,
    List.append_assoc, List.nil_append] at h
  replace h := (List.cons.inj h).2
  -- The other name is written with a quotation mark in front, so it is a text as well.
  have hquote : ∃ t, otherText = '\x22' :: t := by
    cases otherText with
    | nil => exact absurd (List.cons.inj h).1 (by decide)
    | cons c t => exact ⟨t, by rw [(List.cons.inj h).1]⟩
  obtain ⟨t, rfl⟩ := hquote
  obtain ⟨otherName, rfl⟩ := eq_text_of_json_quote hname
  rw [json] at hname
  rw [← Except.ok.inj hname] at h
  obtain ⟨rfl, hvalue⟩ := jsonText_append_inj h
  obtain ⟨rfl, hend⟩ := jsonText_append_inj (List.cons.inj hvalue).2
  exact ⟨rfl, rfl, (List.cons.inj hend).2⟩

/-- The defines of a key are read back behind the first of them. -/
theorem keyParts_append_inj {active other : ActiveDefines} (hnames : active.TextNames)
    {parts otherParts : List Text} (hparts : jsonItems active.keyItems = .ok parts)
    (hother : jsonItems other.keyItems = .ok otherParts) {r s : Text}
    (h : parts.flatMap (',' :: ·) ++ ']' :: r = otherParts.flatMap (',' :: ·) ++ ']' :: s) :
    active = other ∧ r = s := by
  -- The induction is on the pairs of names and values; a comma or the bracket says whether there are more.
  obtain ⟨pairs, rfl⟩ := hnames
  induction pairs generalizing other parts otherParts with
  | nil =>
    rw [List.map_nil, jsonItems_keyItems_nil] at hparts
    obtain rfl := Except.ok.inj hparts
    cases other with
    | nil =>
      rw [jsonItems_keyItems_nil] at hother
      obtain rfl := Except.ok.inj hother
      exact ⟨rfl, (List.cons.inj h).2⟩
    | cons define other =>
      obtain ⟨nameText, rest, -, -, rfl⟩ := jsonItems_keyItems_cons hother
      exact absurd (List.cons.inj h).1 (by decide)
  | cons pair pairs ih =>
    obtain ⟨nameText, rest, hname, hrest, rfl⟩ := jsonItems_keyItems_cons hparts
    rw [json] at hname
    obtain rfl := Except.ok.inj hname
    cases other with
    | nil =>
      rw [jsonItems_keyItems_nil] at hother
      obtain rfl := Except.ok.inj hother
      exact absurd (List.cons.inj h).1 (by decide)
    | cons define other =>
      obtain ⟨otherText, otherRest, hotherName, hotherRest, rfl⟩ := jsonItems_keyItems_cons hother
      simp only [List.flatMap_cons, List.cons_append, List.append_assoc] at h
      obtain ⟨hdefine, hvalue, hbehind⟩ := keyPart_append_inj hotherName (List.cons.inj h).2
      obtain ⟨htail, hr⟩ := ih hotherRest hbehind hrest
      exact ⟨by rw [List.map_cons, htail, ← hdefine, hvalue], hr⟩

/-- The list of defines in a key is read back. -/
theorem keyGroup_append_inj {active other : ActiveDefines} (hnames : active.TextNames)
    {parts otherParts : List Text} (hparts : jsonItems active.keyItems = .ok parts)
    (hother : jsonItems other.keyItems = .ok otherParts) {r s : Text}
    (h : jsonGroup '[' ']' parts ++ r = jsonGroup '[' ']' otherParts ++ s) :
    active = other ∧ r = s := by
  refine keyParts_append_inj hnames hparts hother ?_
  -- With a comma before the first part as well, groups without parts are no special case; but one
  -- group without and one with parts differ already behind the bracket.
  have hpart : ∀ {active : ActiveDefines} {part : Text} {parts : List Text},
      jsonItems active.keyItems = .ok (part :: parts) → ∃ t, part = '[' :: t := by
    intro active part parts hitems
    cases active with
    | nil => cases hitems
    | cons define active =>
      obtain ⟨nameText, rest, -, -, he⟩ := jsonItems_keyItems_cons hitems
      exact ⟨_, (List.cons.inj he).1⟩
  cases parts with
  | nil =>
    cases otherParts with
    | nil =>
      rw [jsonGroup_nil_append, jsonGroup_nil_append] at h
      exact (List.cons.inj h).2
    | cons part otherParts =>
      obtain ⟨t, rfl⟩ := hpart hother
      rw [jsonGroup_nil_append, jsonGroup_cons_append] at h
      exact absurd (List.cons.inj (List.cons.inj h).2).1 (by decide)
  | cons part parts =>
    cases otherParts with
    | nil =>
      obtain ⟨t, rfl⟩ := hpart hparts
      rw [jsonGroup_nil_append, jsonGroup_cons_append] at h
      exact absurd (List.cons.inj (List.cons.inj h).2).1 (by decide)
    | cons otherPart otherParts =>
      rw [jsonGroup_cons_append, jsonGroup_cons_append] at h
      simp only [List.flatMap_cons, List.cons_append, List.append_assoc]
      rw [(List.cons.inj h).2]

end ActiveDefines

/-- Entries that a table took in all have texts as names. -/
theorem MacroTable.name_eq_text_of_defineEntries_ok {table : MacroTable} {changed now : Bool}
    {entries : List (Value × Value)} (h : (table.defineEntries changed entries).result = .ok now) :
    ∀ entry ∈ entries, ∃ name, entry.1 = .text name := by
  induction entries generalizing table changed with
  | nil => intro entry hentry; cases hentry
  | cons entry rest ih =>
    obtain ⟨name, value⟩ := entry
    rw [defineEntries, Step.result_andThen] at h
    cases hone : (table.defineOne name value).result with
    | error fault => rw [hone] at h; cases h
    | ok one =>
      rw [hone] at h
      intro entry hentry
      rcases List.mem_cons.1 hentry with rfl | hentry
      · cases name with
        | text name => exact ⟨name, rfl⟩
        | _ => cases hone
      · exact ih h entry hentry

/-- **Defines that were written into a text have texts as names.** -/
theorem Prologue.textNames_of_injectDefines_ok {source out : Text} {active : ActiveDefines}
    (h : injectDefines source active.toValue = .ok out) : active.TextNames := by
  have hnames : ∀ define ∈ active, ∃ name, define.1 = .text name := by
    cases active with
    | nil => intro define hdefine; cases hdefine
    | cons first rest =>
      have htrue : (ActiveDefines.toValue (first :: rest)).isTrue = true := rfl
      simp only [injectDefines, if_pos htrue, MacroTable.ofValue] at h
      cases hset : (MacroTable.empty.define (ActiveDefines.toValue (first :: rest))
          (.bool true)).result with
      | error fault => rw [hset] at h; cases h
      | ok now =>
        intro define hdefine
        have hmem : (define.1, Value.text define.2)
            ∈ (first :: rest).map fun define => (define.1, Value.text define.2) :=
          List.mem_map.2 ⟨define, hdefine, rfl⟩
        exact MacroTable.name_eq_text_of_defineEntries_ok hset _ hmem
  -- Names that are texts, one by one, are names that are texts all together.
  clear h
  induction active with
  | nil => exact ⟨[], rfl⟩
  | cons first rest ih =>
    obtain ⟨name, hname⟩ := hnames first List.mem_cons_self
    obtain ⟨pairs, hpairs⟩ := ih fun define hdefine => hnames define (List.mem_cons_of_mem _ hdefine)
    refine ⟨(name, first.2) :: pairs, ?_⟩
    rw [List.map_cons, ← hpairs, ← hname]

/-! ## Keys of compiled texts -/

namespace Library

open Value

/-- The JSON text of everything that a compiled text depends on. -/
def keyText (library : Library) (name : FileName) (source defines : Value) : Except Fault Text := do
  let active ← library.macros.active defines
  match (library.keyValue name source active).json with
  | .ok t => .ok t
  | .error problem => .error (.notJson problem)

/-- The key of a compiled text is the digest of its key text. -/
theorem cacheKey_eq (library : Library) (name : FileName) (source defines : Value) :
    library.cacheKey name source defines
      = (library.keyText name source defines).map Digest.ofText := by
  simp only [cacheKey, keyText, Digest.ofValue, bind]
  cases library.macros.active defines with
  | error fault => rfl
  | ok active =>
    simp only [Except.bind]
    cases (library.keyValue name source active).json <;> rfl

/-- The parts of a key text, one after the other. -/
theorem json_keyValue {library : Library} {name : FileName} {source : Text} {active : ActiveDefines}
    {t : Text} (h : (library.keyValue name (.text source) active).json = .ok t) :
    ∃ root parts tail, name.root = .text root ∧ jsonItems active.keyItems = .ok parts ∧
      t = '[' :: (jsonText source ++ ',' :: (jsonText root ++ ',' :: (jsonGroup '[' ']' parts ++
        ',' :: (Text.ofNat library.store.revision ++
          ',' :: (Text.ofNat library.composer.transforms.length ++ ',' :: tail))))) := by
  cases hroot : name.root with
  | bytes bs =>
    simp [keyValue, json, jsonItems, hroot, FileName.toValue, bind, Except.bind, Except.map] at h
  | text root =>
    cases hparts : jsonItems active.keyItems with
    | error problem =>
      rw [ActiveDefines.keyItems] at hparts
      simp [keyValue, json, jsonItems, hroot, FileName.toValue, hparts, bind, Except.bind,
        Except.map] at h
    | ok parts =>
      rw [ActiveDefines.keyItems] at hparts
      simp only [keyValue, json, jsonItems, hroot, FileName.toValue, hparts, bind, Except.bind, pure,
        Except.pure, Except.map] at h
      cases hprecision : library.precision.json with
      | error problem => simp [hprecision] at h
      | ok precision =>
        cases hversion : library.version.json with
        | error problem => simp [hprecision, hversion] at h
        | ok version =>
          simp only [hprecision, hversion, Except.ok.injEq] at h
          refine ⟨root, parts, precision ++ ',' :: version ++ [']'], rfl, rfl, ?_⟩
          rw [← h, ← List.append_nil (jsonGroup _ _ _), jsonGroup_cons_append]
          simp [Text.ofInt]

/-- **A key text determines what it was made from,** where one of the two sides has texts as names
of its defines. -/
theorem keyText_inj {library other : Library} {name otherName : FileName} {source otherSource : Text}
    {defines otherDefines : Value} {active otherActive : ActiveDefines} {t : Text}
    (h : library.keyText name (.text source) defines = .ok t)
    (hother : other.keyText otherName (.text otherSource) otherDefines = .ok t)
    (hactive : library.macros.active defines = .ok active)
    (hotherActive : other.macros.active otherDefines = .ok otherActive)
    (hnames : active.TextNames) :
    source = otherSource ∧ name.root = otherName.root ∧ active = otherActive ∧
      library.store.revision = other.store.revision ∧
      library.composer.transforms.length = other.composer.transforms.length := by
  have hjson : ∀ {library : Library} {name : FileName} {source : Text} {defines : Value}
      {active : ActiveDefines}, library.keyText name (.text source) defines = .ok t →
      library.macros.active defines = .ok active →
      (library.keyValue name (.text source) active).json = .ok t := by
    intro library name source defines active h hactive
    simp only [keyText, hactive, bind, Except.bind] at h
    cases hj : (library.keyValue name (.text source) active).json with
    | error problem => rw [hj] at h; cases h
    | ok json => rw [hj] at h; exact congrArg Except.ok (Except.ok.inj h)
  obtain ⟨root, parts, tail, hroot, hparts, ht⟩ := json_keyValue (hjson h hactive)
  obtain ⟨otherRoot, otherParts, otherTail, hotherRoot, hotherParts, hotherT⟩ :=
    json_keyValue (hjson hother hotherActive)
  -- Part by part, from left to right: each is read back in front of the comma behind it.
  rw [ht] at hotherT
  obtain ⟨hsource, hrest⟩ := jsonText_append_inj (List.cons.inj hotherT).2
  obtain ⟨hrootText, hrest⟩ := jsonText_append_inj (List.cons.inj hrest).2
  obtain ⟨hdefines, hrest⟩ :=
    ActiveDefines.keyGroup_append_inj hnames hparts hotherParts (List.cons.inj hrest).2
  obtain ⟨hrevision, hrest⟩ := Text.ofNat_append_inj (by decide) (List.cons.inj hrest).2
  obtain ⟨hcount, -⟩ := Text.ofNat_append_inj (by decide) hrest
  exact ⟨hsource, by rw [hroot, hotherRoot, hrootText], hdefines, hrevision, hcount⟩

end Library

end GlslCompose
