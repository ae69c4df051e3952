import PlexManager.Core.SourceMapping

/-!
# The hard cutoff

A release that any of its signs marks as a camera copy, a screener or a regional
disc is to be rejected by the default profile, whatever else its name claims.
The signs are the source field, the markers, and the keywords of the title.

A keyword in the title and a marker have the last word: `resolve_quality` asks
for the rejected tiers before anything else. A source field does if it is a
text. If it is a list, the source is unknown, whatever the list has in it, and an
unknown source is rejected too, with one exception. A remux of an unknown source
is taken for one of a Blu-ray at four resolutions, and that is a quality the
default profile allows. `MultiSourceRemux` is that case, and `cutoff_holds_iff`
says that there is no other.

## Theorems

* `cutoff_holds_iff`: When the cutoff holds.
* `cutoff_misses_remux`: A telesync that is accepted.
-/

namespace PlexManager

namespace SourceMapping

open Quality

/-! ### The signs -/

def rejectSourceNames : List String :=
  ["Camera", "HD Camera", "Telesync", "HD Telesync", "Telecine", "HD Telecine", "Workprint"]

def SourceNamed (fields : Fields) : Prop :=
  ∃ name ∈ rejectSourceNames, fields.get "source" = .scalar (.str name)

def SourceListed (fields : Fields) : Prop :=
  ∃ items, fields.get "source" = .list items ∧ ∃ name ∈ rejectSourceNames, .str name ∈ items

/-- A marker of a screener or of a region. -/
def Marked (t : TextTables) (fields : Fields) : Prop :=
  "screener" ∈ others t fields ∨ ∃ other ∈ others t fields, contains other "region" = true

/-- One of the nets has the title. -/
def Netted (t : TextTables) (title : String) : Prop :=
  (∃ source, rejectNet t title = some source) ∨
    ∃ modifier, rejectModifierNet t title = some modifier

/-- Any of the signs. -/
def Pirated (t : TextTables) (fields : Fields) (title : String) : Prop :=
  SourceNamed fields ∨ SourceListed fields ∨ Marked t fields ∨ Netted t title

def Accepts (t : TextTables) (fields : Fields) (title : String) : Prop :=
  let parsed := toParsedRelease t fields title
  (checkQuality (resolveQuality parsed.source parsed.resolution parsed.modifier)
    defaultProfile).accepted = true

def remuxResolutions : List Resolution := [.r480p, .r720p, .r1080p, .r2160p]

/-- Several sources, a rejected one among them, with a remux marker and one of
    these resolutions, and no other sign. -/
def MultiSourceRemux (t : TextTables) (fields : Fields) (title : String) : Prop :=
  SourceListed fields ∧ ¬ Marked t fields ∧ ¬ Netted t title ∧ "remux" ∈ others t fields ∧
    mapResolution t fields ∈ remuxResolutions

/-! ### What is rejected -/

def allowedByDefault (source : QualitySource) (resolution : Resolution) (modifier : Modifier) :
    Bool :=
  defaultProfile.allows (resolveQuality source resolution modifier).id

variable (t : TextTables) (resolution : Resolution) (fields : Fields) (modifier : Modifier)
  {title : String}

theorem accepts_iff (title : String) :
    Accepts t fields title ↔
      allowedByDefault (mapSource t fields title) (mapResolution t fields)
        (mapModifier t fields title) = true := by
  simp only [Accepts, toParsedRelease, allowedByDefault, checkQuality_accepted]

theorem rejected_of_source (source : QualitySource) (resolution : Resolution)
    (modifier : Modifier) (h : (rejectQualityBySource source).isSome = true) :
    allowedByDefault source resolution modifier = false := by
  cases source <;> first | rfl | exact absurd h (by decide)

theorem rejected_of_modifier (source : QualitySource) (resolution : Resolution)
    (modifier : Modifier) (h : modifier = .screener ∨ modifier = .regional) :
    allowedByDefault source resolution modifier = false := by
  rcases h with rfl | rfl
  · cases source <;> rfl
  · cases source <;> rfl

-- Of the two modifiers a release without any sign can have, an unknown source is accepted with
-- a remux only, and only at four resolutions.
theorem allowed_of_unknown (h : modifier = .remux ∨ modifier = .none) :
    allowedByDefault .unknown resolution modifier = true ↔
      modifier = .remux ∧ resolution ∈ remuxResolutions := by
  rcases h with rfl | rfl
  · cases resolution <;> decide
  · cases resolution <;> decide

/-! ### What the signs lead to -/

theorem mem_of_firstMatch {α : Type} {t : TextTables} {table : List (Keyword × α)}
    {a : α} (h : firstMatch t table title = some a) : a ∈ table.map (·.2) := by
  simp only [firstMatch, Option.map_eq_some_iff] at h
  rcases h with ⟨entry, hfind, rfl⟩
  exact List.mem_map.mpr ⟨entry, List.mem_of_find?_eq_some hfind, rfl⟩

theorem rejectNet_rejects {t : TextTables} {source : QualitySource}
    (h : rejectNet t title = some source) : (rejectQualityBySource source).isSome = true := by
  have hmem := mem_of_firstMatch h
  have hall : ∀ s ∈ rejectNetTable.map (·.2), (rejectQualityBySource s).isSome = true := by decide
  exact hall source hmem

theorem mapSource_of_named (title : String) (h : SourceNamed fields) :
    (rejectQualityBySource (mapSource t fields title)).isSome = true := by
  rcases h with ⟨name, hname, hfld⟩
  cases hnet : rejectNet t title with
  | some forced =>
    simp only [mapSource, hnet, Option.getD_some]
    exact rejectNet_rejects hnet
  | none =>
    simp only [mapSource, hnet, Option.getD_none, baseSource, hfld]
    have hweb : name ≠ "Web" := by
      rintro rfl
      exact absurd hname (by decide)
    rw [if_neg hweb]
    have hall : ∀ n ∈ rejectSourceNames,
        (rejectQualityBySource ((sourceMap.lookup n).getD .unknown)).isSome = true := by decide
    exact hall name hname

theorem mapSource_of_listed (title : String) (h : SourceListed fields)
    (hnet : rejectNet t title = none) : mapSource t fields title = .unknown := by
  rcases h with ⟨items, hfld, -⟩
  simp only [mapSource, hnet, Option.getD_none, baseSource, hfld]

theorem mapModifier_of_marked (title : String) (h : Marked t fields) :
    mapModifier t fields title = .screener ∨ mapModifier t fields title = .regional := by
  unfold mapModifier
  by_cases hscreener : "screener" ∈ others t fields
  · rw [if_pos (List.contains_iff_mem.mpr hscreener)]
    exact .inl rfl
  rw [if_neg (fun hc => hscreener (List.contains_iff_mem.mp hc))]
  rcases h with h | h
  · exact absurd h hscreener
  · rw [if_pos (List.any_eq_true.mpr h)]
    exact .inr rfl

theorem mapModifier_of_not_marked (title : String) (h : ¬ Marked t fields) :
    mapModifier t fields title = (rejectModifierNet t title).getD
      (if "remux" ∈ others t fields then .remux else .none) := by
  simp only [Marked, not_or] at h
  unfold mapModifier
  rw [if_neg (fun hc => h.1 (List.contains_iff_mem.mp hc)),
    if_neg (fun hc => h.2 (List.any_eq_true.mp hc))]
  cases rejectModifierNet t title with
  | some forced => rfl
  | none => simp only [Option.getD_none, List.contains_iff_mem]

/-! ### The cutoff -/

theorem rejected_of_sign (title : String)
    (h : SourceNamed fields ∨ Marked t fields ∨ Netted t title) : ¬ Accepts t fields title := by
  rw [accepts_iff]
  have hrejects : ∀ {allowed : Bool}, allowed = false → ¬ allowed = true := by
    rintro _ rfl
    exact Bool.false_ne_true
  rcases h with h | h | ⟨source, hnet⟩ | ⟨modifier, hnet⟩
  · exact hrejects (rejected_of_source _ _ _ (mapSource_of_named t fields title h))
  · exact hrejects (rejected_of_modifier _ _ _ (mapModifier_of_marked t fields title h))
  · refine hrejects (rejected_of_source _ _ _ ?_)
    simp only [mapSource, hnet, Option.getD_some]
    exact rejectNet_rejects hnet
  · refine hrejects (rejected_of_modifier _ _ _ ?_)
    by_cases hmark : Marked t fields
    · exact mapModifier_of_marked t fields title hmark
    · rw [mapModifier_of_not_marked t fields title hmark, hnet]
      have hmem := mem_of_firstMatch hnet
      have hall : ∀ m ∈ rejectModifierNetTable.map (·.2), m = .screener ∨ m = .regional := by decide
      exact hall modifier hmem

theorem accepts_of_listed_iff (title : String) (hlist : SourceListed fields)
    (hmark : ¬ Marked t fields) (hnetted : ¬ Netted t title) :
    Accepts t fields title ↔
      "remux" ∈ others t fields ∧ mapResolution t fields ∈ remuxResolutions := by
  have hsrc : rejectNet t title = none := by
    cases hnet : rejectNet t title with
    | none => rfl
    | some source => exact absurd (.inl ⟨source, hnet⟩) hnetted
  have hmodifier : rejectModifierNet t title = none := by
    cases hnet : rejectModifierNet t title with
    | none => rfl
    | some modifier => exact absurd (.inr ⟨modifier, hnet⟩) hnetted
  rw [accepts_iff, mapSource_of_listed t fields title hlist hsrc,
    mapModifier_of_not_marked t fields title hmark, hmodifier, Option.getD_none]
  by_cases hremux : "remux" ∈ others t fields
  · rw [if_pos hremux, allowed_of_unknown _ _ (.inl rfl)]
    exact ⟨fun h => ⟨hremux, h.2⟩, fun h => ⟨rfl, h.2⟩⟩
  · rw [if_neg hremux, allowed_of_unknown _ _ (.inr rfl)]
    exact ⟨fun h => absurd h.1 (by decide), fun h => absurd h.1 hremux⟩

/-- Any sign of a pirated release has it rejected, exactly where it is no remux
    of several sources. -/
theorem cutoff_holds_iff (t : TextTables) (fields : Fields) (title : String) :
    (Pirated t fields title → ¬ Accepts t fields title) ↔ ¬ MultiSourceRemux t fields title := by
  constructor
  · rintro hcutoff ⟨hlist, hmark, hnetted, hremux, hresolution⟩
    exact hcutoff (.inr (.inl hlist))
      ((accepts_of_listed_iff t fields title hlist hmark hnetted).mpr ⟨hremux, hresolution⟩)
  · intro hcase hpirated haccepts
    have hsign : ¬ (SourceNamed fields ∨ Marked t fields ∨ Netted t title) :=
      fun h => rejected_of_sign t fields title h haccepts
    simp only [not_or] at hsign
    rcases hpirated with h | hlist | h | h
    · exact hsign.1 h
    · have hremux := (accepts_of_listed_iff t fields title hlist hsign.2.1 hsign.2.2).mp haccepts
      exact hcase ⟨hlist, hsign.2.1, hsign.2.2, hremux.1, hremux.2⟩
    · exact hsign.2.1 h
    · exact hsign.2.2 h

def ascii : TextTables where
  casefold := lower
  isWord c := c.isAlphanum || c == '_'
  isSpace c := c.isWhitespace
  sameLetter a b := a.toLower == b.toLower
  digit c := if c.isDigit then some (c.toNat - '0'.toNat) else none
  int s := s.toInt?

/-- What the parser makes of a telesync that is named after its sound too. -/
def telesyncRemux : Fields :=
  [("source", .list [.str "Telesync", .str "Web"]),
    ("other", .scalar (.str "Remux")),
    ("screen_size", .scalar (.str "1080p"))]

/-- `Show TS WEB 1080p Remux`: a bare `TS` is no keyword of the net, so the
    release is a Remux-1080p, and accepted. -/
theorem cutoff_misses_remux :
    ¬ ∀ (t : TextTables) (fields : Fields) (title : String),
      Pirated t fields title → ¬ Accepts t fields title := by
  intro h
  refine h ascii telesyncRemux "Show TS WEB 1080p Remux" (.inr (.inl ?_)) ?_
  · exact ⟨_, rfl, "Telesync", by decide, by decide⟩
  · rw [accepts_iff]
    decide +kernel

end SourceMapping

end PlexManager
