import Retouch.Proofs.Toml.Document
import Retouch.Proofs.Toml.Written
import Retouch.Toml.Settings

/-!
# Written settings are read back

Settings are a table of two arrays of strings and a string.  Such a table can be written plainly,
whatever the strings are (`Settings.exists_write?_entries`), and what is written is a document of
the format.  What is read of it has the same values under the same keys, and settings do not
depend on more (`Settings.ofValue?_congr`).

**Result.**  With every library that writes plainly and reads the format, written settings are
read back as they are, whatever identifiers they list, so that they enable and prefer the same
(`Settings.ofToml?_toToml`).
-/

set_option autoImplicit false

namespace Retouch

theorem Level.ofName?_name (level : Level) : ofName? level.name = some level := by
  cases level <;> decide

namespace Settings

variable {isEmpty : Value → Bool} {settings : Settings}

theorem exists_write?_entries (settings : Settings) :
    ∃ document, Toml.write? (.table settings.entries) = some document := by
  have listed (values : List String) :
      Toml.writeValue? (.array (values.map .text)) = some (Toml.writeArray values) := by
    rw [Toml.writeValue?, Toml.mapM_asText?_eq_some_iff.2 rfl]
    rfl
  have line {key : String} {value : Value} {written : Text} (bare : Toml.isBareKey key = true)
      (plain : Toml.writeValue? value = some written) :
      Toml.writeEntry? (key, value) = some (Toml.writeLine key written) := by
    rw [Toml.writeEntry?, if_pos bare, plain]
    rfl
  have lines : settings.entries.mapM Toml.writeEntry? =
      some [Toml.writeLine "disabled" (Toml.writeArray settings.disabled),
        Toml.writeLine "preferred" (Toml.writeArray settings.preferred),
        Toml.writeLine "log_level" (Toml.writeString settings.level.name.toList)] := by
    rw [entries, List.mapM_cons, line (by decide) (listed _), List.mapM_cons,
      line (by decide) (listed _), List.mapM_cons, line (by decide) rfl]
    rfl
  exact ⟨_, by rw [Toml.write?, lines]; rfl⟩

/-- Settings are read from what stands under their keys. -/
theorem ofValue?_congr {found entries : List (String × Value)}
    (same : ∀ key, Value.find? found key = Value.find? entries key) :
    ofValue? isEmpty (.table found) = ofValue? isEmpty (.table entries) := by
  have fields : (Value.table found).fields? keys = (Value.table entries).fields? keys := by
    rw [Value.fields?, Value.fields?, funext same]
  rw [ofValue?, ofValue?, fields]

theorem ofValue?_entries : ofValue? isEmpty (.table settings.entries) = some settings := by
  have fields : (Value.table settings.entries).fields? keys =
      some [some (.array (settings.disabled.map .text)),
        some (.array (settings.preferred.map .text)), some (.text settings.level.name)] := rfl
  have texts (values : List String) : (values.map Value.text).mapM Value.asText? = some values :=
    Toml.mapM_asText?_eq_some_iff.2 rfl
  rw [ofValue?, fields]
  simp only [Option.bind_eq_bind, Option.bind_some, Value.asArrayOf?, texts, Level.ofValue?,
    Level.ofName?_name]
  rfl

/-- **Settings that are written are read back as they are.** -/
theorem ofToml?_toToml {library : Toml.Library} (writes : library.WritesPlainly)
    (reads : library.ReadsFormat) (settings : Settings) :
    ∃ document, settings.toToml library = some document ∧
      ofToml? library document = some settings ∧
      ∀ loaded, ofToml? library document = some loaded → ∀ id,
        loaded.isEnabled id = settings.isEnabled id ∧
          ∀ byItself, loaded.isPreferred id byItself = settings.isPreferred id byItself := by
  have distinct : (settings.entries.map Prod.fst).Nodup := by
    rw [show settings.entries.map Prod.fst = keys from rfl]
    decide
  obtain ⟨document, plain⟩ := settings.exists_write?_entries
  obtain ⟨lines, same, rfl⟩ := Toml.exists_lines_of_write? plain
  have keyed : lines.map Toml.Line.key = settings.entries.map Prod.fst := by
    rw [← same, List.map_map]
    rfl
  obtain ⟨found, read, entries⟩ := reads lines (keyed ▸ distinct)
  have loads : ofToml? library (lines.flatMap Toml.Line.text) = some settings := by
    rw [same] at entries
    rw [ofToml?, read]
    exact (ofValue?_congr entries).trans ofValue?_entries
  refine ⟨_, writes _ _ distinct plain, loads, fun loaded again id => ?_⟩
  obtain rfl := Option.some.inj (loads.symm.trans again)
  exact ⟨rfl, fun _ => rfl⟩

/-- Settings whose identifiers take each of the notations, and escapes on a line and in a block. -/
def crowded : Settings where
  disabled := ["", "say \"so\"", "it's \"so\"", "C:\\it's", "'''\"\"\"\x01"]
  preferred := ["one\\\n\"two\"'''"]
  level := .warn

theorem ofToml?_toToml_crowded :
    Toml.Library.plain.WritesPlainly ∧ Toml.Library.plain.ReadsFormat ∧
      ∃ document, crowded.toToml .plain = some document ∧
        document = ("disabled = [\n    \"\",\n    'say \"so\"',\n" ++
          "    \"\"\"it's \"so\"\"\"\",\n    '''C:\\it's''',\n" ++
          "    \"'''\\\"\\\"\\\"\\u0001\",\n]\n" ++
          "preferred = [\"\"\"\none\\\\\n\"two\"'''\"\"\"]\nlog_level = \"warn\"\n").toList ∧
        ofToml? .plain document = some crowded := by
  obtain ⟨document, written, read, -⟩ :=
    ofToml?_toToml Toml.Library.writesPlainly_plain Toml.Library.readsFormat_plain crowded
  refine ⟨Toml.Library.writesPlainly_plain, Toml.Library.readsFormat_plain, document, written,
    ?_, read⟩
  exact Option.some.inj (written.symm.trans (by decide +kernel))

end Settings
end Retouch
