import FileStyle.Proofs.AgreeingReports
import FileStyle.Proofs.FindingOrder

/-!
# References to rules

A report in the interchange format lists rules, and its results refer to them by their
identifiers. The report is sound if each rule is listed once, in the order in which the
findings first break the rules, and if what a result refers to is there and describes it.
-/

namespace FileStyle

theorem Reason.label_injective : Function.Injective Reason.label := by
  have hall : ∀ a ∈ Reason.all, ∀ b ∈ Reason.all, a.label = b.label → a = b := by decide
  intro a b h
  exact hall a a.mem_all b b.mem_all h

namespace Report
namespace Sarif

open Document

/-! ## The order of first occurrence -/

section Distinct

variable {α β : Type}

/-- The members of a list in the order in which they first occur in another: in front of the
first occurrence of each there are those that are listed before it, and no others. -/
def FirstOccur (listed all : List α) : Prop :=
  ∀ before x after, listed = before ++ x :: after →
    ∃ earlier later, all = earlier ++ x :: later ∧ ∀ y, y ∈ earlier ↔ y ∈ before

theorem FirstOccur.map {listed all : List α} (h : FirstOccur listed all) (f : α → β) :
    FirstOccur (listed.map f) (all.map f) := by
  intro before x after hsplit
  rcases List.map_eq_append_iff.mp hsplit with ⟨before, rest, rfl, rfl, hrest⟩
  rcases List.map_eq_cons_iff.mp hrest with ⟨x, after, rfl, rfl, rfl⟩
  rcases h before x after rfl with ⟨earlier, later, rfl, hearlier⟩
  refine ⟨earlier.map f, later.map f, by simp, ?_⟩
  intro y
  simp only [List.mem_map, hearlier]

variable [DecidableEq α]

theorem distinct_append_singleton (xs : List α) (x : α) :
    distinct (xs ++ [x]) = if x ∈ distinct xs then distinct xs else distinct xs ++ [x] := by
  rw [distinct, List.foldl_append]
  rfl

theorem mem_distinct_iff {xs : List α} {y : α} : y ∈ distinct xs ↔ y ∈ xs := by
  induction xs using List.reverseRecOn with
  | nil => rfl
  | append_singleton xs x ih =>
      rw [distinct_append_singleton, List.mem_append, List.mem_singleton]
      split
      · next hseen =>
          rw [ih, iff_self_or]
          rintro rfl
          exact ih.mp hseen
      · rw [List.mem_append, List.mem_singleton, ih]

theorem nodup_distinct (xs : List α) : (distinct xs).Nodup := by
  induction xs using List.reverseRecOn with
  | nil => exact List.nodup_nil
  | append_singleton xs x ih =>
      rw [distinct_append_singleton]
      split
      · exact ih
      · next hnew => exact List.nodup_append_comm.mp (List.nodup_cons.mpr ⟨hnew, ih⟩)

theorem firstOccur_distinct (xs : List α) : FirstOccur (distinct xs) xs := by
  induction xs using List.reverseRecOn with
  | nil =>
      intro before x after hsplit
      exact absurd hsplit (by simp [distinct])
  | append_singleton xs last ih =>
      intro before x after hsplit
      rw [distinct_append_singleton] at hsplit
      have holder : ∀ after, distinct xs = before ++ x :: after →
          ∃ earlier later, xs ++ [last] = earlier ++ x :: later ∧
            ∀ y, y ∈ earlier ↔ y ∈ before := by
        intro after hsplit
        rcases ih before x after hsplit with ⟨earlier, later, hxs, hearlier⟩
        exact ⟨earlier, later ++ [last], by simp [hxs], hearlier⟩
      split at hsplit
      · exact holder after hsplit
      · -- The member is the new one if it is listed last, and an older one if it is not.
        rcases List.eq_nil_or_concat after with rfl | ⟨after, new, rfl⟩
        · rcases List.append_inj' hsplit rfl with ⟨hbefore, hlast⟩
          cases hlast
          refine ⟨xs, [], rfl, ?_⟩
          intro y
          rw [← hbefore, mem_distinct_iff]
        · refine holder after ?_
          rw [List.concat_eq_append, ← List.cons_append, ← List.append_assoc] at hsplit
          exact (List.append_inj' hsplit rfl).left

end Distinct

/-! ## Rules and results -/

def listedRules (report : Document) : List Document :=
  (report.itemsOf "runs").flatMap fun run =>
    (((run.at? ["tool", "driver"]).map (·.itemsOf "rules")).getD [])

theorem listedRules_document (files : List FileReport) :
    listedRules (document files) = (rules files).map ruleDocument := by
  have hruns : listedRules (document files) = (rules files).map ruleDocument ++ [] := rfl
  rw [hruns, List.append_nil]

def identifier (r : Reason) : Option Document :=
  some (.text r.label)

theorem identifier_injective : Function.Injective identifier := by
  intro a b h
  exact Reason.label_injective (Document.text.inj (Option.some.inj h))

theorem ids_listedRules (files : List FileReport) :
    (listedRules (document files)).map (·.get? "id") = (rules files).map identifier := by
  rw [listedRules_document, List.map_map]
  rfl

theorem ruleIds_listed (files : List FileReport) :
    (listed (document files)).map (·.get? "ruleId") =
      ((located files).map (·.2.reason)).map identifier := by
  rw [listed_document, List.map_map, List.map_map]
  rfl

def Describes (rule result : Document) : Prop :=
  rule.get? "id" = result.get? "ruleId" ∧
    ∃ description message,
      rule.at? ["shortDescription", "text"] = some (.text description) ∧
      result.at? ["message", "text"] = some (.text message) ∧
      description.toList <:+ message.toList

theorem describes_result (file : String) (f : Finding) :
    Describes (ruleDocument f.reason) (resultDocument (result file f)) := by
  refine ⟨rfl, f.reason.description, _, rfl, rfl, ?_⟩
  rw [result, String.toList_append]
  exact List.suffix_append _ _

structure RefersSoundly (report : Document) (reasons : List Reason) : Prop where
  once : ((listedRules report).map (·.get? "id")).Nodup
  ordered : FirstOccur ((listedRules report).map (·.get? "id")) (reasons.map identifier)
  results : (listed report).map (·.get? "ruleId") = reasons.map identifier
  referred : ∀ id, id ∈ (listedRules report).map (·.get? "id") ↔
    id ∈ (listed report).map (·.get? "ruleId")
  described : ∀ r ∈ listed report, ∃ rule ∈ listedRules report, Describes rule r

theorem refersSoundly (files : List FileReport) :
    RefersSoundly (document files) ((located files).map (·.2.reason)) where
  once := by
    rw [ids_listedRules]
    exact (nodup_distinct _).map identifier_injective
  ordered := by
    rw [ids_listedRules]
    exact (firstOccur_distinct _).map identifier
  results := ruleIds_listed files
  referred := by
    intro id
    rw [ids_listedRules, ruleIds_listed, List.mem_map, List.mem_map]
    simp only [rules, mem_distinct_iff]
  described := by
    intro r hr
    rw [listed_document] at hr
    rcases List.mem_map.mp hr with ⟨e, he, rfl⟩
    refine ⟨ruleDocument e.2.reason, ?_, describes_result e.1 e.2⟩
    rw [listedRules_document]
    refine List.mem_map_of_mem ?_
    rw [rules, mem_distinct_iff]
    exact List.mem_map_of_mem he

/-! ## Regions -/

/-- The one place of a result is a region whose lines and columns count from one and whose end
is not before its start. -/
def HasRegion (r : Document) : Prop :=
  ∃ place, r.itemsOf "locations" = [place] ∧ ∃ startLine startColumn endColumn : Int,
    place.at? ["physicalLocation", "region", "startLine"] = some (.int startLine) ∧
    place.at? ["physicalLocation", "region", "startColumn"] = some (.int startColumn) ∧
    place.at? ["physicalLocation", "region", "endColumn"] = some (.int endColumn) ∧
    1 ≤ startLine ∧ 1 ≤ startColumn ∧ startColumn ≤ endColumn

theorem place_of_mem_check {s : Style} {bytes : List UInt8} {f : Finding}
    (h : f ∈ s.check bytes) : 1 ≤ f.line ∧ f.start ≤ f.stop := by
  by_cases hmark : f.reason = .bomNotFound
  · rw [(Style.head?_check h hmark).right]
    decide
  · rcases Style.exists_fits_of_mem_check h hmark with ⟨n, body, -, hfits⟩
    constructor
    · rw [hfits.line_eq]
      omega
    · by_cases hfinal : f.reason = .noFinalNewline
      · exact Int.le_of_eq (hfits.point hfinal)
      · exact Int.le_of_lt (hfits.span hfinal)

theorem hasRegion_result {f : Finding} (hline : 1 ≤ f.line) (hspan : f.start ≤ f.stop)
    (file : String) : HasRegion (resultDocument (result file f)) :=
  ⟨_, rfl, f.line, max f.start 1, max f.stop 1, rfl, rfl, rfl, hline, Int.le_max_right _ _,
    max_le_max_right 1 hspan⟩

/-! ## Reports -/

/-- The references of every report are sound: each rule is listed once, in the order in which
the findings first break it; the results refer to just the rules that are listed; and each has
a message that ends with the description of its rule. If all findings come from checks of
some bytes, all regions are there too. -/
theorem document_refers_soundly (files : List FileReport) :
    RefersSoundly (document files) ((located files).map (·.2.reason)) ∧
      ((∀ report ∈ files, ∀ f ∈ report.findings, ∃ (s : Style) (bytes : List UInt8),
          f ∈ s.check bytes) →
        ∀ r ∈ listed (document files), HasRegion r) := by
  refine ⟨refersSoundly files, ?_⟩
  intro hchecked r hr
  rw [listed_document] at hr
  rcases List.mem_map.mp hr with ⟨e, he, rfl⟩
  rcases List.mem_flatMap.mp he with ⟨report, hreport, hfinding⟩
  rcases List.mem_map.mp hfinding with ⟨f, hf, rfl⟩
  rcases hchecked report hreport f hf with ⟨s, bytes, hcheck⟩
  rcases place_of_mem_check hcheck with ⟨hline, hspan⟩
  exact hasRegion_result hline hspan report.file

def markedStyle : Style :=
  { charset := some .utf8Bom, indentSize := some ⟨2, Nat.two_pos⟩, insertFinalNewline := some true }

def unmarkedReports : List FileReport :=
  [⟨"b.txt", markedStyle.check [120], 0⟩, ⟨"a.txt", markedStyle.check [9, 120, 10], 0⟩]

/-- Four findings for three reasons. -/
theorem document_refers_soundly_of_unmarked :
    (listedRules (document unmarkedReports)).map (·.get? "id") =
        [.bomNotFound, .noFinalNewline, .indentSizeMismatch].map identifier ∧
      (listed (document unmarkedReports)).length = 4 ∧
      ∀ r ∈ listed (document unmarkedReports), HasRegion r := by
  have hchecked : ∀ report ∈ unmarkedReports, ∀ f ∈ report.findings,
      ∃ (s : Style) (bytes : List UInt8), f ∈ s.check bytes := by
    intro report hreport f hf
    rcases List.mem_cons.mp hreport with rfl | hreport
    · exact ⟨markedStyle, _, hf⟩
    · rw [List.mem_singleton.mp hreport] at hf
      exact ⟨markedStyle, _, hf⟩
  have hrules : rules unmarkedReports = [.bomNotFound, .noFinalNewline, .indentSizeMismatch] := by
    decide +kernel
  have hcount : total unmarkedReports = 4 := by
    decide +kernel
  refine ⟨?_, ?_, (document_refers_soundly unmarkedReports).right hchecked⟩
  · rw [ids_listedRules, hrules]
  · rw [listed_document, List.length_map, length_located, hcount]

end Sarif
end Report
end FileStyle
