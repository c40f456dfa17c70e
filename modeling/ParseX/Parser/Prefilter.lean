import ParseX.Cpp.Bytes
import ParseX.Parser.Parser
import ParseX.Parser.WantedRefs
import ParseX.Raw.LoaderContent

/-! # The pre-filter of file discovery

Whether the bytes of a file could define a wanted short name, without parsing
them. -/
namespace ParseX
open Cpp

def isSpaceByte (unit : UInt8) : Bool :=
  unit == ' '.toUInt8 || unit == '\t'.toUInt8 || unit == '\r'.toUInt8 || unit == '\n'.toUInt8

/-- The first place from `pos` on that holds no space. -/
def skipSpaces (bytes : List UInt8) (pos : Nat) : Nat :=
  pos + ((bytes.drop pos).takeWhile isSpaceByte).length

def opener : List UInt8 := utf8 "SHORT-NAME>"

/-- A byte order mark of UTF-16 in front. -/
def hasUtf16Mark : List UInt8 → Bool
  | first :: second :: _ => first == 0xFF && second == 0xFE || first == 0xFE && second == 0xFF
  | _ => false

/-- The byte before an opener: `<`, or the colon of a namespace. -/
def isOpenerFront (unit : Option UInt8) : Bool :=
  unit == some '<'.toUInt8 || unit == some ':'.toUInt8

/-- The loop of `rawDefinesShortName` from `pos` on. -/
def searchShortName (bytes shortName : List UInt8) : Nat → Nat → Bool
  | 0, _ => false
  | fuel + 1, pos =>
    match find bytes opener pos with
    | none => false
    | some pos =>
      if pos = 0 || !isOpenerFront bytes[pos - 1]? then searchShortName bytes shortName fuel (pos + 1)
      else
        let namePos := skipSpaces bytes (pos + opener.length)
        if (bytes.drop namePos).take shortName.length ≠ shortName then
          searchShortName bytes shortName fuel namePos
        else
          let after := skipSpaces bytes (namePos + shortName.length)
          if bytes[after]? = some '<'.toUInt8 then true
          else searchShortName bytes shortName fuel after

def rawDefinesShortName (bytes shortName : List UInt8) : Bool :=
  hasUtf16Mark bytes || searchShortName bytes shortName (bytes.length + 1) 0

/-- `candidateDefinesAny` on what `readFileBytesOrEmpty` returned. -/
def candidateDefinesAny (bytes : List UInt8) (wanted : WantedRefs) : Bool :=
  bytes.isEmpty || (flattenWanted wanted).any fun name => rawDefinesShortName bytes (utf8 name)

/-! ## Openers and names -/

/-- The place after a start tag `<SHORT-NAME>` or `<p:SHORT-NAME>` of exactly
this spelling starts here. -/
def OpenerAt (bytes : List UInt8) (pos : Nat) : Prop :=
  opener <+: bytes.drop pos ∧ 0 < pos ∧ isOpenerFront bytes[pos - 1]? = true

/-- Where the text behind an opener starts. -/
def nameStart (bytes : List UInt8) (pos : Nat) : Nat := skipSpaces bytes (pos + opener.length)

/-- The name follows the opener. -/
def NameAt (bytes shortName : List UInt8) (pos : Nat) : Prop :=
  shortName <+: bytes.drop (nameStart bytes pos)

/-- Where the text behind an opener and the name goes on. -/
def nameEnd (bytes shortName : List UInt8) (pos : Nat) : Nat :=
  skipSpaces bytes (nameStart bytes pos + shortName.length)

/-- An opener that does not stand inside the name behind an earlier one. -/
def FreeOpener (bytes shortName : List UInt8) (pos : Nat) : Prop :=
  OpenerAt bytes pos ∧ ∀ front, (h : front < pos) → FreeOpener bytes shortName front →
    NameAt bytes shortName front → nameEnd bytes shortName front ≤ pos
termination_by pos

/-- The name stands bare between a free opener and the next tag. -/
def BareAt (bytes shortName : List UInt8) (pos : Nat) : Prop :=
  FreeOpener bytes shortName pos ∧ NameAt bytes shortName pos ∧
    bytes[nameEnd bytes shortName pos]? = some '<'.toUInt8

/-- The file is UTF-16, or holds the name bare somewhere. -/
def BareShortName (bytes shortName : List UInt8) : Prop :=
  hasUtf16Mark bytes = true ∨ ∃ pos, BareAt bytes shortName pos

section
variable {bytes shortName : List UInt8} {pos : Nat}

theorem le_skipSpaces (bytes : List UInt8) (pos : Nat) : pos ≤ skipSpaces bytes pos :=
  Nat.le_add_right _ _

theorem isSpaceByte_of_skipped {place : Nat} (hpos : pos ≤ place)
    (h : place < skipSpaces bytes pos) :
    ∃ unit, bytes[place]? = some unit ∧ isSpaceByte unit = true := by
  rw [skipSpaces] at h
  have hlt : place - pos < ((bytes.drop pos).takeWhile isSpaceByte).length := by omega
  have hstarts := List.takeWhile_prefix isSpaceByte (l := bytes.drop pos)
  refine ⟨((bytes.drop pos).takeWhile isSpaceByte)[place - pos], ?_, ?_⟩
  · rw [hstarts.getElem hlt, ← List.getElem?_eq_getElem, List.getElem?_drop]
    congr 1
    omega
  · exact List.mem_takeWhile_imp (List.getElem_mem hlt)

/-- No opener starts in the one before it or in the blanks behind. -/
theorem not_opener_of_skipped {place : Nat} (h : opener <+: bytes.drop pos) (hlt : pos < place)
    (hskip : place < nameStart bytes pos) : ¬ opener <+: bytes.drop place := by
  intro hplace
  have hfirst : bytes[place]? = some 'S'.toUInt8 := by
    have := getElem?_of_prefix_drop (i := 0) hplace (by decide)
    exact this
  by_cases hin : place < pos + opener.length
  · have hget := getElem?_of_prefix_drop (i := place - pos) h (by omega)
    rw [show pos + (place - pos) = place by omega, hfirst] at hget
    have hinner : ∀ i < opener.length, 0 < i → opener[i]? ≠ some 'S'.toUInt8 := by decide
    exact hinner _ (by omega) (by omega) hget.symm
  · obtain ⟨unit, hunit, hspace⟩ := isSpaceByte_of_skipped (by omega) hskip
    rw [hfirst] at hunit
    obtain rfl := Option.some.inj hunit
    cases hspace

/-! ## The search -/

/-- No name behind an earlier free opener reaches past the place. -/
def Uncovered (bytes shortName : List UInt8) (pos : Nat) : Prop :=
  ∀ front < pos, FreeOpener bytes shortName front → NameAt bytes shortName front →
    nameEnd bytes shortName front ≤ pos

theorem freeOpener_iff :
    FreeOpener bytes shortName pos ↔ OpenerAt bytes pos ∧ Uncovered bytes shortName pos := by
  rw [FreeOpener]
  rfl

theorem OpenerAt.lt_length (h : OpenerAt bytes pos) : pos < bytes.length := by
  by_contra hlong
  have hstarts := h.1
  rw [List.drop_eq_nil_of_le (by omega)] at hstarts
  exact absurd (List.prefix_nil.mp hstarts) (by decide)

/-- The search may go on at `next` when no free opener before it is left out, or
has a name that reaches past it. -/
theorem Uncovered.next {next : Nat} (h : Uncovered bytes shortName pos) (hle : pos ≤ next)
    (hbetween : ∀ place, pos ≤ place → place < next → FreeOpener bytes shortName place →
      NameAt bytes shortName place → nameEnd bytes shortName place ≤ next) :
    Uncovered bytes shortName next := by
  intro front hfront hfree hname
  by_cases hlt : front < pos
  · exact (h front hlt hfree hname).trans hle
  · exact hbetween front (by omega) hfront hfree hname

theorem exists_bareAt_from {next : Nat} (hle : pos ≤ next)
    (hnone : ∀ place, pos ≤ place → place < next → ¬ BareAt bytes shortName place) :
    (∃ place, next ≤ place ∧ BareAt bytes shortName place) ↔
      ∃ place, pos ≤ place ∧ BareAt bytes shortName place := by
  constructor
  · rintro ⟨place, hplace, hbare⟩
    exact ⟨place, hle.trans hplace, hbare⟩
  · rintro ⟨place, hplace, hbare⟩
    refine ⟨place, ?_, hbare⟩
    by_contra hlt
    exact hnone place hplace (by omega) hbare

/-- The search from a place finds the names that stand bare from there on. -/
theorem searchShortName_iff (bytes shortName : List UInt8) : ∀ (fuel pos : Nat),
    bytes.length < fuel + pos → Uncovered bytes shortName pos →
    (searchShortName bytes shortName fuel pos = true ↔
      ∃ place, pos ≤ place ∧ BareAt bytes shortName place) := by
  intro fuel
  induction fuel with
  | zero =>
    intro pos hfuel _
    constructor
    · intro h
      cases h
    · rintro ⟨place, hplace, ⟨hfree, -⟩⟩
      have := (freeOpener_iff.mp hfree).1.lt_length
      omega
  | succ fuel ih =>
    intro pos hfuel huncovered
    rw [searchShortName]
    cases hfind : find bytes opener pos with
    | none =>
      constructor
      · intro h
        cases h
      · rintro ⟨place, hplace, ⟨hfree, -⟩⟩
        exact absurd (freeOpener_iff.mp hfree).1.1 (find_eq_none hfind (by decide) hplace)
    | some found =>
      obtain ⟨hle, hopener, hfirst⟩ := find_eq_some hfind
      -- before the found place there is no opener at all
      have hbefore (place : Nat) (hplace : pos ≤ place) (hlt : place < found) :
          ¬ FreeOpener bytes shortName place := fun hfree =>
        hfirst place hplace hlt (freeOpener_iff.mp hfree).1.1
      have hfound : Uncovered bytes shortName found :=
        huncovered.next hle fun place hplace hlt hfree => absurd hfree (hbefore place hplace hlt)
      have hgo (next : Nat) (hnext : found < next) (hbare : ¬ BareAt bytes shortName found)
          (hend : FreeOpener bytes shortName found → NameAt bytes shortName found →
            nameEnd bytes shortName found ≤ next)
          (hskip : ∀ place, found < place → place < next → ¬ FreeOpener bytes shortName place) :
          searchShortName bytes shortName fuel next = true ↔
            ∃ place, pos ≤ place ∧ BareAt bytes shortName place := by
        rw [ih next (by omega) (hfound.next hnext.le fun place hplace hlt hfree => ?_)]
        · refine exists_bareAt_from (by omega) fun place hplace hlt hplaceBare => ?_
          rcases Nat.lt_trichotomy place found with hbelow | rfl | habove
          · exact hbefore place hplace hbelow hplaceBare.1
          · exact hbare hplaceBare
          · exact hskip place habove hlt hplaceBare.1
        · rcases Nat.eq_or_lt_of_le hplace with rfl | habove
          · exact hend hfree
          · exact absurd hfree (hskip place habove hlt)
      have hstart : found + opener.length ≤ nameStart bytes found := le_skipSpaces _ _
      have hstop : nameStart bytes found + shortName.length ≤ nameEnd bytes shortName found :=
        le_skipSpaces _ _
      have hlength : opener.length = 11 := by decide
      dsimp only
      split
      case isTrue hfront =>
        have hnot : ¬ FreeOpener bytes shortName found := by
          intro hfree
          obtain ⟨-, hpositive, hunit⟩ := (freeOpener_iff.mp hfree).1
          rw [Bool.or_eq_true, decide_eq_true_eq, Bool.not_eq_true'] at hfront
          rcases hfront with hzero | hfront
          · omega
          · rw [hunit] at hfront
            cases hfront
        exact hgo (found + 1) (by omega) (fun hbare => hnot hbare.1) (fun hfree => absurd hfree hnot)
          fun place habove hlt => by omega
      case isFalse hfront =>
        rw [Bool.or_eq_true, decide_eq_true_eq, Bool.not_eq_true', not_or, Bool.not_eq_false]
          at hfront
        have hfree : FreeOpener bytes shortName found :=
          freeOpener_iff.mpr ⟨⟨hopener, Nat.pos_of_ne_zero hfront.1, hfront.2⟩, hfound⟩
        have hname : NameAt bytes shortName found ↔
            (bytes.drop (nameStart bytes found)).take shortName.length = shortName :=
          List.prefix_iff_eq_take.trans eq_comm
        split
        case isTrue hother =>
          have hnot : ¬ NameAt bytes shortName found := fun h => hother (hname.mp h)
          exact hgo (nameStart bytes found) (by omega) (fun hbare => hnot hbare.2.1)
            (fun _ h => absurd h hnot) fun place habove hlt hplace =>
              not_opener_of_skipped hopener habove hlt (freeOpener_iff.mp hplace).1.1
        case isFalse hsame =>
          have hnameAt := hname.mpr (not_not.mp hsame)
          split
          case isTrue hclose => exact iff_of_true rfl ⟨found, hle, hfree, hnameAt, hclose⟩
          case isFalse hopen =>
            -- an opener inside the name is not looked at
            exact hgo (nameEnd bytes shortName found) (by omega) (fun hbare => hopen hbare.2.2)
              (fun _ _ => le_rfl) fun place habove hlt hplace => by
                have := (freeOpener_iff.mp hplace).2 found habove hfree hnameAt
                omega

theorem rawDefinesShortName_iff :
    rawDefinesShortName bytes shortName = true ↔ BareShortName bytes shortName := by
  have hsearch := searchShortName_iff bytes shortName (bytes.length + 1) 0 (by omega)
    fun front hfront => by omega
  rw [rawDefinesShortName, Bool.or_eq_true, hsearch]
  simp only [Nat.zero_le, true_and]
  rfl

/-- **A file is kept for every set with a name exactly when it is empty or holds
the name bare.** -/
theorem candidate_kept_iff (bytes : List UInt8) (name : String) :
    (∀ wanted, name ∈ flattenWanted wanted → candidateDefinesAny bytes wanted = true) ↔
      bytes = [] ∨ BareShortName bytes (utf8 name) := by
  rw [← rawDefinesShortName_iff]
  constructor
  · intro h
    let wanted : WantedRefs := { pdus := (∅ : StdSet).insert name }
    have hmem (other : String) : other ∈ flattenWanted wanted ↔ name = other := by
      rw [mem_flattenWanted, exists_family]
      simp [WantedRefs.of, wanted]
    have hkept := h wanted ((hmem name).mpr rfl)
    rw [candidateDefinesAny, Bool.or_eq_true, List.isEmpty_iff, List.any_eq_true] at hkept
    refine hkept.imp_right fun h => ?_
    obtain ⟨other, hother, hraw⟩ := h
    rwa [(hmem other).mp hother]
  · intro h wanted hname
    rw [candidateDefinesAny, Bool.or_eq_true, List.isEmpty_iff, List.any_eq_true]
    exact h.imp_right fun hraw => ⟨name, hname, hraw⟩

end

/-! ## Files that define a name -/

/-- What the discovery relies on: a file that the loader accepts and whose model has
an element of the name is kept. -/
def NoFalseNegatives (D : Type) [Double D] (deliver : Bytes → Loader.Delivery) : Prop :=
  ∀ (bytes : Bytes) (path : String) (root : RawNode) (file : ParsedFile D) (family : RefFamily)
    (name : String), Loader.loadRawDocumentFromMemory bytes (deliver bytes) = some root →
    parseDocument path root = .ok file → name ∈ definedNames file family →
    ∀ wanted, name ∈ flattenWanted wanted → candidateDefinesAny bytes wanted = true

/-- A document whose short name carries an attribute. -/
def attributedText : String :=
  "<AUTOSAR xmlns:xsi=\"http://www.w3.org/2001/XMLSchema-instance\" " ++
  "xsi:schemaLocation=\"http://autosar.org/schema/r4.0 AUTOSAR_4-2-2.xsd\">" ++
  "<I-SIGNAL><SHORT-NAME S=\"1\">Speed</SHORT-NAME></I-SIGNAL></AUTOSAR>"

/-- What libxml2 delivers for it. -/
def attributedContent : Loader.Content :=
  .element "AUTOSAR" none [⟨some "xsi", some "http://www.w3.org/2001/XMLSchema-instance"⟩]
    [⟨"schemaLocation", some "xsi", "http://autosar.org/schema/r4.0 AUTOSAR_4-2-2.xsd"⟩]
    (.child (.element "I-SIGNAL" none [] [] (.child
      (.element "SHORT-NAME" none [] [⟨"S", none, "1"⟩] (.characters "Speed" .nil)) .nil)) .nil)

def deliverAttributed (bytes : Bytes) : Loader.Delivery :=
  if bytes = utf8 attributedText then ⟨attributedContent.events, true⟩ else ⟨[], false⟩

/-- The signal is not found under its own name. -/
theorem attributed_name_rejected : ¬ NoFalseNegatives WholeDouble deliverAttributed := by
  intro h
  have hrejected : candidateDefinesAny (utf8 attributedText)
      { signals := (∅ : StdSet).insert "Speed" } = false := by
    decide +kernel
  have hnames : ((Loader.loadRawDocumentFromMemory (utf8 attributedText)
      (deliverAttributed (utf8 attributedText))).bind fun root =>
        (parseDocument "speed.arxml" root : Except ParseFailure (ParsedFile WholeDouble)).toOption).map
          (definedNames · .signals) = some ["Speed"] := by
    decide +kernel
  obtain ⟨file, hfile, hdefined⟩ := Option.map_eq_some_iff.mp hnames
  obtain ⟨root, hroot, hparse⟩ := Option.bind_eq_some_iff.mp hfile
  have hok : parseDocument "speed.arxml" root = .ok file := by
    cases hresult : (parseDocument "speed.arxml" root :
        Except ParseFailure (ParsedFile WholeDouble)) with
    | error failure =>
      rw [hresult] at hparse
      cases hparse
    | ok other =>
      rw [hresult] at hparse
      rw [Option.some.inj hparse]
  have hkept := h (utf8 attributedText) "speed.arxml" root file .signals "Speed" hroot hok
    (hdefined ▸ List.mem_singleton_self "Speed") { signals := (∅ : StdSet).insert "Speed" }
    (by decide +kernel)
  rw [hrejected] at hkept
  cases hkept

end ParseX
