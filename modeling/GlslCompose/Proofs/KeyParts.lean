/-
`Proofs/KeyParts.lean` -- keys that are made of texts can be read in one way only.

Two things are looked up by the digest of a JSON text: the body of a compiled text, by what
it depends on (`KeyParts`), and a program, by the two texts that it was made of. Each JSON
text determines what it is the text of (`KeyParts.text_injective`,
`ShaderPair.programText_injective`), so if two different keys have one digest it is because
two different texts have.

The text of a key is read from the left. A string tells where it ends, a list of defines
does too, and a number ends where the comma behind it stands. No part is missed at the end,
since nothing and a version that is a text start with different characters. That none of
the names in a key is anything but a text is what sets this apart from `keyText_inj`, which
knows it of one side only and stops before the precision.
-/
import GlslCompose.Proofs.KeyText
import GlslCompose.Proofs.ProgramCoherence

set_option autoImplicit false

namespace GlslCompose

/-- Two different texts with one digest, which are the JSON texts of two values. -/
def Digest.Collide (v w : Value) : Prop :=
  ∃ s t, v.json = .ok s ∧ w.json = .ok t ∧ s ≠ t ∧ Digest.ofText s = Digest.ofText t

/-- **Values with different JSON texts and one digest collide.** -/
theorem Digest.collide_of_ofValue_eq {v w : Value} {s t : Text} (hv : v.json = .ok s)
    (hw : w.json = .ok t) (hne : s ≠ t) (h : Digest.ofValue v = Digest.ofValue w) :
    Digest.Collide v w := by
  rw [Digest.ofValue, Digest.ofValue, hv, hw] at h
  exact ⟨s, t, hv, hw, hne, Except.ok.inj h⟩

namespace Library

open Value

/-- **What the body of a compiled text depends on,** where all of it is texts and numbers. -/
structure KeyParts where
  source : Text
  root : Text
  /-- The active defines, in order. -/
  defines : List (Text × Text)
  /-- The revision of the store. -/
  revision : Nat
  /-- The number of transforms. -/
  transforms : Nat
  precision : Text
  version : Option Text

namespace KeyParts

/-- The defines of a key as a library has them. -/
def active (parts : KeyParts) : ActiveDefines := parts.defines.map fun pair => (.text pair.1, pair.2)

/-- A key as a value. -/
def toValue (parts : KeyParts) : Value :=
  .list [
    .text parts.source,
    .text parts.root,
    .list parts.active.keyItems,
    .int parts.revision,
    .int parts.transforms,
    .text parts.precision,
    ShaderPair.textValue parts.version]

/-- What a key says of its defines. -/
def defineTexts (parts : KeyParts) : List Text :=
  parts.defines.map fun pair => ActiveDefines.keyPart (jsonText pair.1) pair.2

/-- The text of a key. -/
def text (parts : KeyParts) : Text :=
  jsonGroup '[' ']' [
    jsonText parts.source,
    jsonText parts.root,
    jsonGroup '[' ']' parts.defineTexts,
    Text.ofNat parts.revision,
    Text.ofNat parts.transforms,
    jsonText parts.precision,
    ShaderPair.jsonOf parts.version]

theorem jsonItems_active (parts : KeyParts) :
    jsonItems parts.active.keyItems = .ok parts.defineTexts := by
  obtain ⟨_, _, defines, _, _, _, _⟩ := parts
  simp only [active, defineTexts]
  induction defines with
  | nil => rfl
  | cons pair defines ih =>
    simp only [ActiveDefines.keyItems, List.map_cons, jsonItems, json, bind, Except.bind, pure,
      Except.pure, Except.map] at ih ⊢
    rw [ih]
    rfl

/-- The text of a key is its JSON text. -/
theorem json_toValue (parts : KeyParts) : parts.toValue.json = .ok parts.text := by
  have hversion : (ShaderPair.textValue parts.version).json = .ok (ShaderPair.jsonOf parts.version) := by
    cases parts.version <;> rfl
  simp only [toValue, json, jsonItems, parts.jsonItems_active, hversion, bind, Except.bind, pure,
    Except.pure, Except.map, text]
  rfl

/-- **The text of a key determines the key.** -/
theorem text_injective {parts other : KeyParts} (h : parts.text = other.text) : parts = other := by
  have hspread : ∀ parts : KeyParts, parts.text = '[' :: (jsonText parts.source ++ ',' ::
      (jsonText parts.root ++ ',' :: (jsonGroup '[' ']' parts.defineTexts ++ ',' ::
        (Text.ofNat parts.revision ++ ',' :: (Text.ofNat parts.transforms ++ ',' ::
          (jsonText parts.precision ++ ',' :: (ShaderPair.jsonOf parts.version ++ [']']))))))) := by
    intro parts
    rw [text, ← List.append_nil (jsonGroup _ _ _), jsonGroup_cons_append]
    simp
  -- Each part is read back in front of the comma or the bracket behind it, from left to right.
  rw [hspread parts, hspread other] at h
  obtain ⟨hsource, h⟩ := jsonText_append_inj (List.cons.inj h).2
  obtain ⟨hroot, h⟩ := jsonText_append_inj (List.cons.inj h).2
  obtain ⟨hactive, h⟩ := ActiveDefines.keyGroup_append_inj ⟨parts.defines, rfl⟩ parts.jsonItems_active
    other.jsonItems_active (List.cons.inj h).2
  obtain ⟨hrevision, h⟩ := Text.ofNat_append_inj (by decide) (List.cons.inj h).2
  obtain ⟨htransforms, h⟩ := Text.ofNat_append_inj (by decide) h
  obtain ⟨hprecision, h⟩ := jsonText_append_inj h
  obtain ⟨hversion, -⟩ := ShaderPair.jsonOf_append_inj (List.cons.inj h).2
  have hdefines : parts.defines = other.defines := by
    refine (List.map_inj_right fun pair otherPair hpair => ?_).1 hactive
    obtain ⟨hname, hvalue⟩ := Prod.mk.inj hpair
    exact Prod.ext (Value.text.inj hname) hvalue
  obtain ⟨source, root, defines, revision, transforms, precision, version⟩ := parts
  obtain rfl : source = other.source := hsource
  obtain rfl : root = other.root := hroot
  obtain rfl : defines = other.defines := hdefines
  obtain rfl : revision = other.revision := hrevision
  obtain rfl : transforms = other.transforms := htransforms
  obtain rfl : precision = other.precision := hprecision
  obtain rfl : version = other.version := hversion
  rfl

end KeyParts

/-- **A compilation that is keyed by some parts:** its source, settings and defines are texts, and these
are they. -/
structure KeyedBy (library : Library) (name source : Text) (defines : Value) (parts : KeyParts) :
    Prop where
  source : source = parts.source
  root : FileName.root (.text name) = .text parts.root
  defines : library.macros.active defines = .ok parts.active
  revision : library.store.revision = parts.revision
  transforms : library.composer.transforms.length = parts.transforms
  precision : library.precision = .text parts.precision
  version : library.version = ShaderPair.textValue parts.version

/-- The key of a compilation is the digest of its parts. -/
theorem KeyedBy.cacheKey_eq {library : Library} {name source : Text} {defines : Value}
    {parts : KeyParts} (h : library.KeyedBy name source defines parts) :
    library.cacheKey (.text name) (.text source) defines = Digest.ofValue parts.toValue := by
  simp only [cacheKey, h.defines, bind, Except.bind, keyValue, h.root, h.revision, h.transforms,
    h.precision, h.version, h.source]
  rfl

end Library

namespace ShaderPair

/-- The texts of a program as a value. -/
def textsValue (texts : ProgramTexts) : Value :=
  .list [textValue texts.vertex, textValue texts.fragment]

/-- The text under a program's key is its JSON text. -/
theorem json_textsValue (texts : ProgramTexts) :
    (textsValue texts).json = .ok (programText texts) := by
  obtain ⟨vertex, fragment⟩ := texts
  cases vertex <;> cases fragment <;> rfl

end ShaderPair

namespace Library

open ShaderPair (programKey textsValue)

/-- **Keys are told apart by their JSON texts.** All keys have one, different keys have different ones,
and so have different pairs of texts for a program. So two compilations share an entry of the cache,
and two pairs of texts a program, only if they agree in all parts or if two different JSON texts have
one digest. -/
theorem json_toValue_injective :
    (∀ parts : KeyParts, ∃ t, parts.toValue.json = .ok t) ∧
    (Function.Injective fun parts : KeyParts => parts.toValue.json) ∧
    (∀ texts : ProgramTexts, ∃ t, (textsValue texts).json = .ok t ∧
      programKey texts = Digest.ofText t) ∧
    (Function.Injective fun texts : ProgramTexts => (textsValue texts).json) ∧
    (∀ (library other : Library) (name otherName source otherSource : Text)
      (defines otherDefines : Value) (parts otherParts : KeyParts),
      library.KeyedBy name source defines parts →
      other.KeyedBy otherName otherSource otherDefines otherParts →
      library.cacheKey (.text name) (.text source) defines
        = other.cacheKey (.text otherName) (.text otherSource) otherDefines →
      parts = otherParts ∨ Digest.Collide parts.toValue otherParts.toValue) ∧
    ∀ texts other : ProgramTexts, programKey texts = programKey other →
      texts = other ∨ Digest.Collide (textsValue texts) (textsValue other) := by
  refine ⟨fun parts => ⟨parts.text, parts.json_toValue⟩, fun parts other h => ?_,
    fun texts => ⟨_, ShaderPair.json_textsValue texts, rfl⟩, fun texts other h => ?_, ?_, ?_⟩
  · dsimp only at h
    rw [parts.json_toValue, other.json_toValue] at h
    exact KeyParts.text_injective (Except.ok.inj h)
  · dsimp only at h
    rw [ShaderPair.json_textsValue, ShaderPair.json_textsValue] at h
    exact ShaderPair.programText_injective (Except.ok.inj h)
  · intro library other name otherName source otherSource defines otherDefines parts otherParts
      hkeyed hother h
    rw [hkeyed.cacheKey_eq, hother.cacheKey_eq] at h
    by_cases hsame : parts.text = otherParts.text
    · exact .inl (KeyParts.text_injective hsame)
    · exact .inr (Digest.collide_of_ofValue_eq parts.json_toValue otherParts.json_toValue hsame h)
  · intro texts other h
    by_cases hsame : ShaderPair.programText texts = ShaderPair.programText other
    · exact .inl (ShaderPair.programText_injective hsame)
    · exact .inr ⟨_, _, ShaderPair.json_textsValue texts, ShaderPair.json_textsValue other, hsame, h⟩

/-- A library with a version. -/
def versionedLibrary : Library :=
  ⟨⟨.empty, .empty, [], 0⟩, .text defaultPrecision, .text "300 es", .empty, 0⟩

/-- A key with two defines. -/
def plainKey : KeyParts :=
  ⟨"int a;", "/", [("A", "1"), ("B", "2")], 0, 0, defaultPrecision, some "300 es"⟩

/-- A key with one define, which is written with the quotes and brackets that stand between two. -/
def quotedKey : KeyParts :=
  ⟨"int a;", "/", [("A", "1\x22],[\x22B\x22,\x222")], 0, 0, defaultPrecision, some "300 es"⟩

/-- A define that is written like two has a key of its own. -/
theorem json_toValue_injective_of_quotes :
    versionedLibrary.KeyedBy "x" "int a;"
      (.map [(.text "A", .bool true), (.text "B", .text "2")]) plainKey ∧
    versionedLibrary.KeyedBy "y" "int a;" (.map [(.text "A", .text "1\x22],[\x22B\x22,\x222")])
      quotedKey ∧
    (versionedLibrary.cacheKey (.text "x") (.text "int a;")
        (.map [(.text "A", .bool true), (.text "B", .text "2")])
      = versionedLibrary.cacheKey (.text "y") (.text "int a;")
        (.map [(.text "A", .text "1\x22],[\x22B\x22,\x222")]) →
      Digest.Collide plainKey.toValue quotedKey.toValue) := by
  have htwo : versionedLibrary.KeyedBy "x" "int a;"
      (.map [(.text "A", .bool true), (.text "B", .text "2")]) plainKey :=
    ⟨rfl, by decide, rfl, rfl, rfl, rfl, rfl⟩
  have hone : versionedLibrary.KeyedBy "y" "int a;"
      (.map [(.text "A", .text "1\x22],[\x22B\x22,\x222")]) quotedKey :=
    ⟨rfl, by decide, rfl, rfl, rfl, rfl, rfl⟩
  refine ⟨htwo, hone, fun h => ?_⟩
  rcases json_toValue_injective.2.2.2.2.1 _ _ _ _ _ _ _ _ _ _ htwo hone h with heq | hcollide
  · exact absurd (congrArg KeyParts.defines heq) (by decide)
  · exact hcollide

end Library

end GlslCompose
