import TabOS.Net.RoundTrip

/-!
# Updating what was written

The lines that the writer keeps are kept again by a second update, and so are the blank line and the header before its own section. A
second update appends another section, so the text grows by a blank line and a header.
-/

namespace TabOS
namespace Net

/-- Whether the line after some lines is in the section of the writer. -/
def sectionAt (wifiSection : Bool) (text : List (List UInt8)) : Bool :=
  text.foldl (fun wifiSection line => sectionAfter wifiSection (content line)) wifiSection

theorem content_completed (line : List UInt8) : content (completed line) = content line :=
  content_line (newline_notMem_content line) []

theorem completed_completed (line : List UInt8) : completed (completed line) = completed line := by
  rw [completed, content_completed, completed]

theorem keptLines_append (wifiSection : Bool) (text later : List (List UInt8)) :
    keptLines wifiSection (text ++ later) = keptLines wifiSection text ++ keptLines (sectionAt wifiSection text) later := by
  induction text generalizing wifiSection with
  | nil => rfl
  | cons line text ih =>
    have hat : sectionAt wifiSection (line :: text) = sectionAt (sectionAfter wifiSection (content line)) text := rfl
    by_cases howned : isOwnedLine (content line) (sectionAfter wifiSection (content line))
    · rw [List.cons_append, keptLines_owned howned, keptLines_owned howned, ih, hat, sectionAfter_of_owned howned]
    · rw [List.cons_append, keptLines_kept howned, keptLines_kept howned, ih, hat]
      rfl

/-- Completing the lines changes nothing for the writer. -/
theorem keptLines_completed (wifiSection : Bool) (text : List (List UInt8)) :
    keptLines wifiSection (text.map completed) = (keptLines wifiSection text).map completed := by
  induction text generalizing wifiSection with
  | nil => rfl
  | cons line text ih =>
    rw [List.map_cons, keptLines, keptLines, content_completed]
    split_ifs
    · exact ih _
    · rw [ih]
      rfl

/-- What is kept once is kept again. -/
theorem keptLines_keptLines (wifiSection : Bool) (text : List (List UInt8)) :
    keptLines wifiSection (keptLines wifiSection text) = keptLines wifiSection text := by
  induction text generalizing wifiSection with
  | nil => rfl
  | cons line text ih =>
    by_cases howned : isOwnedLine (content line) (sectionAfter wifiSection (content line))
    · rw [keptLines_owned howned, ih]
    · rw [keptLines_kept howned, keptLines_kept howned, ih]

/-- The lines of completed lines before a text. -/
theorem lines_completed (text : List (List UInt8)) (rest : List UInt8) :
    lines (text.flatMap completed ++ rest) = text.map completed ++ lines rest := by
  induction text with
  | nil => rfl
  | cons line text ih =>
    have hline : (line :: text).flatMap completed ++ rest = content line ++ newline :: (text.flatMap completed ++ rest) := by
      rw [List.flatMap_cons, completed, List.append_assoc, List.append_assoc]
      rfl
    rw [hline, lines_line (newline_notMem_content line), ih]
    rfl

/-- The lines of the writer's own section after its header. -/
def assignments (config : NetworkConfig) : List UInt8 :=
  ssidKey ++ equals :: quoted (cString config.ssid) ++ newline ::
    (passwordKey ++ equals :: quoted (cString config.password) ++ newline ::
      (nameKey ++ equals :: quoted (cString (writtenName config)) ++ newline ::
        (autoConnectKey ++ equals :: booleanText config.autoConnect ++ newline :: [])))

/-- The line that names the section of the writer. -/
def headerLine : List UInt8 := openBracket :: wifiName ++ [closeBracket]

theorem lines_sectionText (config : NetworkConfig) :
    lines (sectionText config) = [newline] :: (headerLine ++ [newline]) :: lines (assignments config) := by
  have hheader : newline ∉ headerLine := by decide
  have htext : sectionText config = [] ++ newline :: (headerLine ++ newline :: assignments config) := rfl
  rw [htext, lines_line List.not_mem_nil, lines_line hheader]
  rfl

/-- The blank line and the header of the writer's own section are kept. -/
theorem keptLines_sectionText (wifiSection : Bool) (config : NetworkConfig) :
    keptLines wifiSection (lines (sectionText config)) =
      [newline] :: (headerLine ++ [newline]) :: keptLines true (lines (assignments config)) := by
  have hblank : ∀ wifiSection, ¬isOwnedLine (content [newline]) (sectionAfter wifiSection (content [newline])) := by decide
  have hheader : ∀ wifiSection,
      ¬isOwnedLine (content (headerLine ++ [newline])) (sectionAfter wifiSection (content (headerLine ++ [newline]))) := by
    decide
  have hwifi : ∀ wifiSection, sectionAfter wifiSection (content (headerLine ++ [newline])) = true := by decide
  rw [lines_sectionText, keptLines_kept (hblank wifiSection), keptLines_kept (hheader _), hwifi]

/-- The lines that the writer has written. -/
theorem lines_written (existing : List (List UInt8)) (config : NetworkConfig) :
    lines (versionKey ++ equals :: versionOne ++ newline :: ((keptLines false existing).flatMap completed ++ sectionText config)) =
      (versionKey ++ equals :: versionOne ++ [newline]) :: ((keptLines false existing).map completed ++ lines (sectionText config)) := by
  have hversion : newline ∉ versionKey ++ equals :: versionOne := by decide
  rw [lines_line hversion, lines_completed]

/-- A second update keeps the lines of the first, and the blank line and the header of its section. -/
theorem keptLines_written (existing : List (List UInt8)) (config : NetworkConfig) :
    keptLines false (lines (versionKey ++ equals :: versionOne ++ newline ::
      ((keptLines false existing).flatMap completed ++ sectionText config))) =
      (keptLines false existing).map completed ++
        [newline] :: (headerLine ++ [newline]) :: keptLines true (lines (assignments config)) := by
  have howned : isOwnedLine (content (versionKey ++ equals :: versionOne ++ [newline]))
      (sectionAfter false (content (versionKey ++ equals :: versionOne ++ [newline]))) := by decide
  rw [lines_written, keptLines_owned howned, keptLines_append, keptLines_completed, keptLines_keptLines, keptLines_sectionText]

/-- An update of its own output with the same configuration never gives the output again: it is longer by eight bytes at least. -/
theorem networkConfigFormatUpdate_grows {existing : List UInt8} {config : NetworkConfig} {capacity : Nat} {output : List UInt8}
    (h : networkConfigFormatUpdate existing config capacity = .ok output) (capacity' : Nat) :
    networkConfigFormatUpdate output config capacity' ≠ .ok output ∧
      ∀ output', networkConfigFormatUpdate output config capacity' = .ok output' → output.length + 8 ≤ output'.length := by
  obtain ⟨-, -, rfl⟩ := eq_of_networkConfigFormatUpdate h
  have hgrown : ∀ output', networkConfigFormatUpdate (versionKey ++ equals :: versionOne ++ newline ::
      ((keptLines false (lines existing)).flatMap completed ++ sectionText config)) config capacity' = .ok output' →
      (versionKey ++ equals :: versionOne ++ newline ::
        ((keptLines false (lines existing)).flatMap completed ++ sectionText config)).length + 8 ≤ output'.length := by
    intro output' h'
    obtain ⟨-, -, rfl⟩ := eq_of_networkConfigFormatUpdate h'
    have hkept : ((keptLines false (lines existing)).map completed).flatMap completed =
        (keptLines false (lines existing)).flatMap completed := by
      rw [List.flatMap_map, show (fun line => completed (completed line)) = completed from funext completed_completed]
    have hblank : (completed [newline]).length = 1 := by decide
    have hheader : (completed (headerLine ++ [newline])).length = 7 := by decide
    rw [keptLines_written, List.flatMap_append, hkept, List.flatMap_cons, List.flatMap_cons]
    simp only [List.length_append, List.length_cons, hblank, hheader]
    omega
  exact ⟨fun hsame => absurd (hgrown _ hsame) (by omega), hgrown⟩

/-- A network without a password, saved over nothing. -/
def plainConfig : NetworkConfig := { ssid := [0x61], password := [], name := [], autoConnect := true }

theorem networkConfigFormatUpdate_grows_plain :
    let output := versionKey ++ equals :: versionOne ++ newline :: sectionText plainConfig
    networkConfigFormatUpdate [] plainConfig (fileMax + 1) = .ok output ∧
      networkConfigFormatUpdate output plainConfig (fileMax + 1) ≠ .ok output := by
  intro output
  have hformat : networkConfigFormatUpdate [] plainConfig (fileMax + 1) = .ok output := by decide
  exact ⟨hformat, (networkConfigFormatUpdate_grows hformat (fileMax + 1)).1⟩

/-- A second save of the same network keeps the header of the first. -/
theorem second_save_grows :
    let output := versionKey ++ equals :: versionOne ++ newline :: sectionText plainConfig
    let output' := versionKey ++ equals :: versionOne ++ newline :: newline :: (headerLine ++ newline :: sectionText plainConfig)
    networkConfigFormatUpdate [] plainConfig (fileMax + 1) = .ok output ∧
      networkConfigFormatUpdate output plainConfig (fileMax + 1) = .ok output' ∧ output' ≠ output ∧ output.length < output'.length := by
  decide

end Net
end TabOS
