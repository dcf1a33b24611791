import Satzbau.Proofs.Internal.Resolving
import Satzbau.Proofs.Pointing.Defining
import Satzbau.Proofs.Preceding.Programs

namespace Satzbau

/-- Whether a place is one of a text: characters of a line, the end behind the last token of a line, or the end of the
file, on the line behind the last one. -/
structure Source.PointsInto (path : Path) (text : String) (place : Location) : Prop where
  file : place.file = some path.written
  place : Shown false (linesOf path text) place ∨
    place.span = some (.onLine ((textLines text.toList).length + 1) 1 1) ∧ place.token = some ""

/-- Whether a diagnostic points into a text, also where it tells of an earlier definition. -/
structure Diagnostic.PointsInto (path : Path) (text : String) (d : Diagnostic) : Prop where
  here : ∃ place, d.location = some place ∧ Source.PointsInto path text place
  first : ∀ what signature place, d.fault = .duplicateDefinition what signature place → Source.PointsInto path text place

theorem Diagnostic.PointsAt.pointsInto {path : Path} {text : String} {d : Diagnostic}
    (points : d.PointsAt (Source.PointsInto path text)) (blames : ¬d.IsInternal) : d.PointsInto path text where
  here := by
    cases found : d.location with
    | none => exact absurd (points.nowhere found) blames
    | some place => exact ⟨place, rfl, points.here place found⟩
  first what signature place duplicate := points.first place (by rw [duplicate]; rfl)

namespace TokenStream

variable {files : Files} {path : Path} {text : String}

/-- All that is read of a text that imports nothing, or found wrong with it, is at a place of it. -/
theorem ofText_isAt (alone : Source.WithoutImports false (Source.linesOf path text)) :
    (∀ item ∈ (ofText files path text).items, Parser.IsAt (Source.PointsInto path text) item) ∧
      Source.PointsInto path text (ofText files path text).fileEnd.location := by
  rw [ofText_alone alone]
  constructor
  · intro item member
    have shown := @Source.readLines_shown files ⟨ImportQueue.empty.visit (files.identify path), false⟩ _ alone item member
    refine shown.mono fun place onLine => ⟨?_, Or.inl onLine⟩
    obtain ⟨line, among, file, _⟩ := onLine.onLine
    obtain ⟨index, there⟩ := List.mem_iff_getElem?.mp among
    rw [file, (Source.linesOf_getElem? there).1]
  · have length : (Source.linesOf path text).length = (textLines text.toList).length := List.length_mapIdx
    exact ⟨rfl, Or.inr ⟨by rw [← length]; rfl, rfl⟩⟩

/-- Whatever is found wrong with a text that imports nothing is at a place of it, when it is parsed and when it is
analyzed with any dictionary. -/
theorem every_fault_pointsInto (alone : Source.WithoutImports false (Source.linesOf path text)) :
    (∀ d, (ofText files path text).program = .error d → d.PointsInto path text) ∧
      ∀ p, (ofText files path text).program = .ok p → ∀ dictionary d, p.analyze dictionary = .error d →
        d.PointsInto path text := by
  have read : (ofText files path text).IsRead := .ofText ..
  obtain ⟨atItems, atEnd⟩ := @ofText_isAt files path text alone
  constructor
  · intro d failed
    have points := @Parser.program_late ⟨Source.PointsInto path text, _, _, [], default, atItems, atEnd⟩ d
      (program_eq_error.mp failed)
    exact points.pointsInto (program_noInternal read.clean d failed)
  · intro p parsed dictionary d failed
    have known : TokensAt (Source.PointsInto path text) p.constituents :=
      read.program_tokensAt parsed fun t member => atItems _ member
    exact ((p.analyze_yields known dictionary).points failed).pointsInto (read.analyze_noInternal parsed dictionary d failed)

end TokenStream

/-- Two functions with one signature. -/
def layingTwice : String :=
  "Verb lege:\n  intern\n.\nVerb lege:\n  intern\n.\n"

theorem layingTwice_pointsInto :
    ∃ p d, (TokenStream.ofText .none ⟨"satz"⟩ layingTwice).program = .ok p ∧ p.analyze ⟨[]⟩ = .error d ∧
      d = ⟨.duplicateDefinition .function "lege" ⟨some "satz", some (.onLine 1 6 10), some "lege"⟩,
        some ⟨some "satz", some (.onLine 4 6 10), some "lege"⟩⟩ ∧ d.PointsInto ⟨"satz"⟩ layingTwice := by
  have alone : Source.WithoutImports false (Source.linesOf ⟨"satz"⟩ layingTwice) := by
    unfold Source.WithoutImports
    decide +kernel
  have stream := @TokenStream.ofText_alone .none _ _ alone
  have computed : ((TokenStream.ofText .none ⟨"satz"⟩ layingTwice).program.map fun p => p.definitions.length).toOption =
      some 2 := by
    rw [stream]
    decide +kernel
  have refused : ((TokenStream.ofText .none ⟨"satz"⟩ layingTwice).program.bind fun p =>
      (p.analyze ⟨[]⟩).map fun _ => ()) =
        .error ⟨.duplicateDefinition .function "lege" ⟨some "satz", some (.onLine 1 6 10), some "lege"⟩,
          some ⟨some "satz", some (.onLine 4 6 10), some "lege"⟩⟩ := by
    rw [stream]
    decide +kernel
  obtain ⟨p, parsed, _⟩ := exists_ok_of_view computed
  rw [parsed] at refused
  have failed := eq_error_of_map refused
  exact ⟨p, _, parsed, failed, rfl, (TokenStream.every_fault_pointsInto alone).2 p parsed _ _ failed⟩

end Satzbau
