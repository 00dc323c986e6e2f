import Mathlib
import Wardrobe.Sheet.Basic

/-!
# Places in processing order

An entry is a rule together with where it stands.  Of two entries one precedes the other by its
dialect, or else by its file name in lower case, its path component by component, its line, or its
position within the line (`RuleEntry.Precedes`).  The same order comes from comparing keys, which
are called places here (`precedes_iff`).

Processing order sorts whole sheets by one key (`Sheet.sortKey`).  Sheets that differ in dialect or
path have different keys (`sortKey_eq_iff`), and the lines of a sheet that was read are numbered
upwards.  So the entries of the sheets in processing order stand in the strict order of their places
(`pairwise_place_processingOrder`).
-/

namespace Wardrobe

/-- A rule in the place where it stands. -/
structure RuleEntry where
  dialect : Dialect
  path : Path
  line : Nat
  /-- The position within the line, counted from zero. -/
  position : Nat
  rule : Rule
  deriving DecidableEq

/-- The file name of a path is its last component if that is a name, and empty otherwise. -/
inductive Path.IsFileName (p : Path) : Text → Prop
  | named {before : List Component} {name : Text}
      (components : p.components = before ++ [.name name]) : IsFileName p name
  | unnamed (noName : ∀ before name, p.components ≠ before ++ [.name name]) : IsFileName p []

/-- The order of components: the root, `.`, `..`, and then the names, character by character. -/
inductive Path.Component.Before : Component → Component → Prop
  | rootHere : Before .root .here
  | rootUp : Before .root .up
  | rootName (name : Text) : Before .root (.name name)
  | hereUp : Before .here .up
  | hereName (name : Text) : Before .here (.name name)
  | upName (name : Text) : Before .up (.name name)
  | names {name name' : Text} (smaller : name < name') : Before (.name name) (.name name')

/-- One entry precedes another in processing order. -/
inductive RuleEntry.Precedes (e e' : RuleEntry) : Prop
  | byDialect (barred : e.dialect = .barred) (clausal : e'.dialect = .clausal)
  | byName {name name' : Text} (dialect : e.dialect = e'.dialect)
      (named : e.path.IsFileName name) (named' : e'.path.IsFileName name')
      (smaller : Text.lower name < Text.lower name')
  | byPath {name name' : Text} (dialect : e.dialect = e'.dialect)
      (named : e.path.IsFileName name) (named' : e'.path.IsFileName name')
      (same : Text.lower name = Text.lower name')
      (smaller : List.Lex Path.Component.Before e.path.components e'.path.components)
  | byLine (dialect : e.dialect = e'.dialect)
      (path : e.path.components = e'.path.components) (smaller : e.line < e'.line)
  | byPosition (dialect : e.dialect = e'.dialect)
      (path : e.path.components = e'.path.components) (line : e.line = e'.line)
      (smaller : e.position < e'.position)

/-- The place of an entry, as a key: the dialect, the file name in lower case, the path, the line
and the position within the line. -/
def RuleEntry.place (e : RuleEntry) : ℕ ×ₗ List ℕ ×ₗ SortKey ×ₗ ℕ ×ₗ ℕ :=
  toLex (e.dialect.rank, toLex ((Text.lower e.path.fileName).map Char.toNat,
    toLex (e.path.sortKey, toLex (e.line, e.position))))

namespace Sheet

/-- A sheet that was read from a text. -/
def IsRead (s : Sheet) : Prop :=
  ∃ path dialect v t, s = ofText path dialect v t

/-- Two sheets have the same dialect, and their paths the same components. -/
def SameFile (s t : Sheet) : Prop :=
  s.dialect = t.dialect ∧ s.path.components = t.path.components

instance (s t : Sheet) : Decidable (s.SameFile t) :=
  inferInstanceAs (Decidable (s.dialect = t.dialect ∧ s.path.components = t.path.components))

/-- A text reads into a sheet that was read. -/
@[simp] lemma isRead_ofText (path : Path) (dialect : Dialect) (v : Vocabulary) (t : Text) :
    (ofText path dialect v t).IsRead :=
  ⟨path, dialect, v, t, rfl⟩

/-- The rules on a line of a sheet that count, with their positions among these. -/
def lineEntries (counts : Rule → Bool) (s : Sheet) (line : SheetLine) : List RuleEntry :=
  (line.content.toRules.filter counts).zipIdx.map fun (r, i) =>
    ⟨s.dialect, s.path, line.number, i, r⟩

/-- The rules of a sheet that count, each with its position among those on its line. -/
def entries (counts : Rule → Bool) (s : Sheet) : List RuleEntry :=
  s.lines.flatMap (s.lineEntries counts)

end Sheet

/-! ## Keys of sheets -/

/-- Different texts have different lists of code points. -/
lemma Text.map_toNat_injective : Function.Injective (List.map Char.toNat) :=
  List.map_injective_iff.mpr fun _ _ h => Char.toNat_inj.mp h

/-- Different components have different keys. -/
lemma Path.Component.sortKey_injective : Function.Injective Path.Component.sortKey := by
  intro c d h
  cases c <;> cases d <;> simp_all [Path.Component.sortKey, Text.map_toNat_injective.eq_iff]

/-- The components of a path tell its file name. -/
lemma Path.fileName_congr {p q : Path} (h : p.components = q.components) :
    p.fileName = q.fileName := by
  unfold Path.fileName
  rw [h]

/-- Paths have the same key exactly when they have the same components. -/
lemma Path.sortKey_eq_iff {p q : Path} : p.sortKey = q.sortKey ↔ p.components = q.components :=
  Path.Component.sortKey_injective.list_map.eq_iff

/-- Different dialects have different ranks. -/
lemma Dialect.rank_injective : Function.Injective Dialect.rank := by
  intro d d' h
  cases d <;> cases d' <;> simp_all [Dialect.rank]

/-! ## The order of entries -/

/-- The barred dialect has the smaller rank. -/
lemma Dialect.rank_lt_iff {d d' : Dialect} :
    d.rank < d'.rank ↔ d = .barred ∧ d' = .clausal := by
  cases d <;> cases d' <;> simp [Dialect.rank]

/-- The file name of a path whose last component is a name. -/
lemma Path.fileName_of_append {p : Path} {before : List Component} {name : Text}
    (h : p.components = before ++ [.name name]) : p.fileName = name := by
  rw [fileName, h, List.getLast?_concat]

/-- The file name of a path whose last component is no name. -/
lemma Path.fileName_of_noName {p : Path}
    (h : ∀ before name, p.components ≠ before ++ [.name name]) : p.fileName = [] := by
  unfold fileName
  split
  · next name hlast =>
    obtain ⟨before, hcomponents⟩ := List.getLast?_eq_some_iff.mp hlast
    exact absurd hcomponents (h before name)
  · rfl

/-- A path has one file name. -/
lemma Path.isFileName_iff {p : Path} {name : Text} : p.IsFileName name ↔ p.fileName = name := by
  constructor
  · rintro (⟨hcomponents⟩ | ⟨hnone⟩)
    · exact fileName_of_append hcomponents
    · exact fileName_of_noName hnone
  · rintro rfl
    by_cases h : ∃ before name, p.components = before ++ [.name name]
    · obtain ⟨before, name, hcomponents⟩ := h
      rw [fileName_of_append hcomponents]
      exact .named hcomponents
    · have hnone : ∀ before name, p.components ≠ before ++ [.name name] := fun before name heq =>
        h ⟨before, name, heq⟩
      rw [fileName_of_noName hnone]
      exact .unnamed hnone

/-- A map that keeps the order of elements keeps the lexicographic order of lists. -/
lemma lex_iff_map_lt {α β : Type*} [LinearOrder β] {r : α → α → Prop} {f : α → β}
    (hf : Function.Injective f) (hr : ∀ x y, r x y ↔ f x < f y) {l l' : List α} :
    List.Lex r l l' ↔ l.map f < l'.map f := by
  induction l generalizing l' with
  | nil => cases l' <;> simp
  | cons x l ih =>
    cases l' with
    | nil => simp
    | cons y l' =>
      rw [List.cons_lex_cons_iff, List.map_cons, List.map_cons, List.cons_lt_cons_iff, hr, ih,
        hf.eq_iff]

/-- Texts are compared by their code points. -/
lemma Text.lt_iff_map_lt {t t' : Text} : t < t' ↔ t.map Char.toNat < t'.map Char.toNat :=
  lex_iff_map_lt (fun _ _ h => Char.toNat_inj.mp h) fun _ _ => Iff.rfl

/-- Components are compared by their keys. -/
lemma Path.Component.before_iff {c d : Component} : c.Before d ↔ c.sortKey < d.sortKey := by
  constructor
  · intro h
    cases h with
    | names hsmaller => exact List.Lex.cons (Text.lt_iff_map_lt.mp hsmaller)
    | _ => exact List.Lex.rel (by decide)
  · intro h
    cases c <;> cases d
    case name.name n n' =>
      exact .names (Text.lt_iff_map_lt.mpr (List.cons_lt_cons_self.mp h))
    -- the first numbers of the keys tell all other components apart
    all_goals first
      | constructor
      | exact absurd h (by simp [sortKey, List.cons_lt_cons_iff])

/-- Paths are compared by their keys. -/
lemma Path.lex_before_iff {p q : Path} :
    List.Lex Component.Before p.components q.components ↔ p.sortKey < q.sortKey :=
  lex_iff_map_lt Component.sortKey_injective fun _ _ => Component.before_iff

/-- Entries precede each other by their places. -/
lemma RuleEntry.precedes_iff {e e' : RuleEntry} : e.Precedes e' ↔ e.place < e'.place := by
  unfold place
  simp only [Prod.Lex.toLex_lt_toLex, Dialect.rank_lt_iff, Dialect.rank_injective.eq_iff,
    ← Text.lt_iff_map_lt, ← Path.lex_before_iff, Path.sortKey_eq_iff,
    Text.map_toNat_injective.eq_iff]
  constructor
  · intro h
    cases h with
    | byDialect hbarred hclausal => exact Or.inl ⟨hbarred, hclausal⟩
    | byName hdialect hname hname' hlt =>
      rw [Path.isFileName_iff] at hname hname'
      subst hname hname'
      exact Or.inr ⟨hdialect, Or.inl hlt⟩
    | byPath hdialect hname hname' hsame hlt =>
      rw [Path.isFileName_iff] at hname hname'
      subst hname hname'
      exact Or.inr ⟨hdialect, Or.inr ⟨hsame, Or.inl hlt⟩⟩
    | byLine hdialect hpath hlt =>
      have hname := congrArg Text.lower (Path.fileName_congr hpath)
      exact Or.inr ⟨hdialect, Or.inr ⟨hname, Or.inr ⟨hpath, Or.inl hlt⟩⟩⟩
    | byPosition hdialect hpath hline hlt =>
      have hname := congrArg Text.lower (Path.fileName_congr hpath)
      exact Or.inr ⟨hdialect, Or.inr ⟨hname, Or.inr ⟨hpath, Or.inr ⟨hline, hlt⟩⟩⟩⟩
  · have hname : ∀ p : Path, p.IsFileName p.fileName := fun p => Path.isFileName_iff.mpr rfl
    rintro (⟨hbarred, hclausal⟩ | ⟨hdialect, hlt | ⟨hsame, hlt | ⟨hpath, hlt | ⟨hline, hlt⟩⟩⟩⟩)
    · exact .byDialect hbarred hclausal
    · exact .byName hdialect (hname _) (hname _) hlt
    · exact .byPath hdialect (hname _) (hname _) hsame hlt
    · exact .byLine hdialect hpath hlt
    · exact .byPosition hdialect hpath hline hlt

instance (e e' : RuleEntry) : Decidable (e.Precedes e') :=
  decidable_of_iff (e.place < e'.place) RuleEntry.precedes_iff.symm

namespace Sheet

variable {s t : Sheet} {counts : Rule → Bool} {e e' : RuleEntry}

/-- The key of a sheet tells exactly its dialect and the components of its path. -/
lemma sortKey_eq_iff : s.sortKey = t.sortKey ↔ s.SameFile t := by
  unfold sortKey SameFile
  simp only [List.cons.injEq, and_true, Dialect.rank_injective.eq_iff, Path.sortKey_eq_iff]
  constructor
  · rintro ⟨hdialect, -, hpath⟩
    exact ⟨hdialect, hpath⟩
  · rintro ⟨hdialect, hpath⟩
    exact ⟨hdialect, by rw [Path.fileName_congr hpath], hpath⟩

/-- One key comes before another or holds the same place when it is not larger. -/
lemma notAfter_iff {a b : SortKey} : a.notAfter b = true ↔ a ≤ b := by
  unfold SortKey.notAfter
  rw [Bool.not_eq_true', decide_eq_false_iff_not]
  exact not_lt

/-! ## Entries of one sheet -/

/-- The entries of a line. -/
lemma mem_lineEntries_iff {line : SheetLine} : e ∈ s.lineEntries counts line ↔
    e.dialect = s.dialect ∧ e.path = s.path ∧ e.line = line.number ∧
      (line.content.toRules.filter counts)[e.position]? = some e.rule := by
  unfold lineEntries
  simp only [List.mem_map, Prod.exists, List.mk_mem_zipIdx_iff_getElem?]
  constructor
  · rintro ⟨r, i, hr, rfl⟩
    exact ⟨rfl, rfl, rfl, hr⟩
  · rintro ⟨hdialect, hpath, hline, hrule⟩
    exact ⟨e.rule, e.position, hrule, by rw [← hdialect, ← hpath, ← hline]⟩

/-- An entry stands in the file of its sheet. -/
lemma file_of_mem_entries (he : e ∈ s.entries counts) :
    e.dialect = s.dialect ∧ e.path = s.path := by
  obtain ⟨line, -, hmem⟩ := List.mem_flatMap.mp he
  obtain ⟨hdialect, hpath, -⟩ := mem_lineEntries_iff.mp hmem
  exact ⟨hdialect, hpath⟩

/-- The entries of a line stand in the order of their places. -/
lemma pairwise_place_lineEntries (s : Sheet) (counts : Rule → Bool) (line : SheetLine) :
    (s.lineEntries counts line).Pairwise fun e e' => e.place < e'.place := by
  unfold lineEntries
  rw [List.pairwise_map, List.pairwise_iff_getElem]
  intro i j hi hj hij
  simp only [List.getElem_zipIdx]
  exact RuleEntry.precedes_iff.mp (.byPosition rfl rfl rfl (by simpa using hij))

/-- The lines of a sheet that was read are numbered upwards. -/
lemma IsRead.pairwise_number (h : s.IsRead) :
    s.lines.Pairwise fun line line' => line.number < line'.number := by
  obtain ⟨path, dialect, v, t, rfl⟩ := h
  unfold ofText
  rw [List.pairwise_map, List.pairwise_iff_getElem]
  intro i j hi hj hij
  rw [List.getElem_zipIdx, List.getElem_zipIdx]
  change 0 + i + 1 < 0 + j + 1
  omega

/-- The entries of a sheet that was read stand in the order of their places. -/
lemma IsRead.pairwise_place_entries (h : s.IsRead) (counts : Rule → Bool) :
    (s.entries counts).Pairwise fun e e' => e.place < e'.place := by
  refine List.pairwise_flatMap.mpr ⟨fun line _ => pairwise_place_lineEntries s counts line, ?_⟩
  refine h.pairwise_number.imp fun {line line'} hlt e he e' he' => ?_
  obtain ⟨hdialect, hpath, hline, -⟩ := mem_lineEntries_iff.mp he
  obtain ⟨hdialect', hpath', hline', -⟩ := mem_lineEntries_iff.mp he'
  refine RuleEntry.precedes_iff.mp (.byLine ?_ ?_ ?_)
  · rw [hdialect, hdialect']
  · rw [hpath, hpath']
  · rw [hline, hline']
    exact hlt

/-! ## Entries of several sheets -/

/-- The key of a sheet compares dialects first, then file names, then paths. -/
lemma sortKey_lt_iff : s.sortKey < t.sortKey ↔ s.dialect.rank < t.dialect.rank ∨
    s.dialect.rank = t.dialect.rank ∧
      ((Text.lower s.path.fileName).map Char.toNat < (Text.lower t.path.fileName).map Char.toNat ∨
        (Text.lower s.path.fileName).map Char.toNat =
          (Text.lower t.path.fileName).map Char.toNat ∧ s.path.sortKey < t.path.sortKey) := by
  unfold sortKey
  simp only [List.cons_lt_cons_iff, List.lt_irrefl, List.cons.injEq, and_true, and_false, or_false]

/-- The entries of a sheet with a smaller key have smaller places. -/
lemma place_lt_of_sortKey_lt (h : s.sortKey < t.sortKey) (he : e ∈ s.entries counts)
    (he' : e' ∈ t.entries counts) : e.place < e'.place := by
  obtain ⟨hdialect, hpath⟩ := file_of_mem_entries he
  obtain ⟨hdialect', hpath'⟩ := file_of_mem_entries he'
  unfold RuleEntry.place
  simp only [Prod.Lex.toLex_lt_toLex, hdialect, hpath, hdialect', hpath']
  rcases sortKey_lt_iff.mp h with hlt | ⟨heq, hlt | ⟨hname, hlt⟩⟩
  · exact Or.inl hlt
  · exact Or.inr ⟨heq, Or.inl hlt⟩
  · exact Or.inr ⟨heq, Or.inr ⟨hname, Or.inl hlt⟩⟩

/-- Processing order only rearranges the sheets. -/
lemma processingOrder_perm (sheets : List Sheet) : (processingOrder sheets).Perm sheets :=
  List.mergeSort_perm _ _

/-- Places of sheets are ordered transitively. -/
lemma notAfter_trans (s t u : Sheet) (hst : s.sortKey.notAfter t.sortKey = true)
    (htu : t.sortKey.notAfter u.sortKey = true) : s.sortKey.notAfter u.sortKey = true := by
  rw [notAfter_iff] at hst htu ⊢
  exact hst.trans htu

/-- Of two sheets one does not come after the other. -/
lemma notAfter_total (s t : Sheet) :
    (s.sortKey.notAfter t.sortKey || t.sortKey.notAfter s.sortKey) = true := by
  rw [Bool.or_eq_true, notAfter_iff, notAfter_iff]
  exact le_total _ _

/-- The sheets in processing order have ascending keys. -/
lemma pairwise_sortKey_le (sheets : List Sheet) :
    (processingOrder sheets).Pairwise fun s t => s.sortKey ≤ t.sortKey :=
  (List.pairwise_mergeSort notAfter_trans notAfter_total sheets).imp fun h => notAfter_iff.mp h

/-- Sheets that differ in dialect or path have strictly ascending keys in processing order. -/
lemma pairwise_sortKey_lt {sheets : List Sheet}
    (hdistinct : sheets.Pairwise fun s t => ¬ s.SameFile t) :
    (processingOrder sheets).Pairwise fun s t => s.sortKey < t.sortKey := by
  have hsymm : ∀ {s t : Sheet}, ¬ s.SameFile t → ¬ t.SameFile s := fun h hts =>
    h ⟨hts.1.symm, hts.2.symm⟩
  have hdistinct' := hdistinct.perm (processingOrder_perm sheets).symm hsymm
  refine (pairwise_sortKey_le sheets).imp₂ (fun s t hle hne => ?_) hdistinct'
  exact lt_of_le_of_ne hle fun heq => hne (sortKey_eq_iff.mp heq)

/-- Different sheets that are arranged by strictly ascending keys are in processing order. -/
lemma processingOrder_eq_of_perm {sheets l : List Sheet}
    (hdistinct : sheets.Pairwise fun s t => ¬ s.SameFile t) (hperm : sheets.Perm l)
    (hl : l.Pairwise fun s t => s.sortKey < t.sortKey) : processingOrder sheets = l :=
  ((processingOrder_perm sheets).trans hperm).eq_of_pairwise
    (fun _ _ _ _ hst hts => absurd hst (lt_asymm hts)) (pairwise_sortKey_lt hdistinct) hl

/-- The entries of different sheets, each of them read from a text, stand in processing order in the
strict order of their places. -/
lemma pairwise_place_processingOrder {sheets : List Sheet} (hread : ∀ s ∈ sheets, s.IsRead)
    (hdistinct : sheets.Pairwise fun s t => ¬ s.SameFile t) (counts : Rule → Bool) :
    ((processingOrder sheets).flatMap (entries counts)).Pairwise
      fun e e' => e.place < e'.place := by
  refine List.pairwise_flatMap.mpr ⟨fun s hs => ?_, ?_⟩
  · have hmem : s ∈ sheets := (processingOrder_perm sheets).mem_iff.mp hs
    exact (hread s hmem).pairwise_place_entries counts
  · exact (pairwise_sortKey_lt hdistinct).imp fun hlt e he e' he' =>
      place_lt_of_sortKey_lt hlt he he'

end Sheet

end Wardrobe
