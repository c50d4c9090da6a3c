import SensorCatalog.Proofs.Json.Value
import SensorCatalog.Settings.Basic

/-!
# Settings are read as they were saved

A saved file names all three settings, whether they are acceptable or not, and each of them is found by its name. So it
is read back whatever the settings are (`Settings.ofText?_toText`), and it is the check that decides what comes of
loading it. A level may be any text at all, with quotes, line breaks and letters beyond ASCII, as nothing looks at it
before it has been read.

Nothing leaves `Settings.load` unchecked, and the defaults pass the check. So no file, whatever is in it, can make
`Settings.loadOrDefault` answer with settings that are not acceptable (`Settings.load_save`).
-/

namespace SensorCatalog

/-- A text can be read from its bytes. -/
theorem SettingsFile.ofBytes_toUTF8 (s : String) : ofBytes s.toUTF8 = .text s := by
  have hread : String.fromUTF8? s.toUTF8 = some s := dif_pos s.isValidUTF8
  rw [ofBytes, hread]

namespace Settings

/-- What is written of settings is well-formed. -/
theorem wellFormed_toJson (s : Settings) : s.toJson.WellFormed := by
  refine Json.wellFormed_record fun f hf => ?_
  simp only [fieldNames, List.zip_cons_cons, List.zip_nil_right, List.mem_cons, List.not_mem_nil, or_false] at hf
  rcases hf with rfl | rfl | rfl
  · exact Json.wellFormed_ofNat s.minutes
  · exact Json.wellFormed_ofNat s.workers
  · exact Json.wellFormed_ofText s.level

/-- The three fields are found again in what was written. -/
theorem someFields?_toJson (s : Settings) : s.toJson.someFields? fieldNames =
    some [some (.ofNat s.minutes), some (.ofNat s.workers), some (.ofText s.level)] :=
  Json.fields?_record (fieldNames.zip [_, _, _]) (show fieldNames.Nodup by decide)

/-- **Settings with 64-bit counts are read as they were saved**, acceptable or not. -/
theorem ofText?_toText {s : Settings} (hminutes : s.minutes < wordEnd) (hworkers : s.workers < wordEnd) :
    ofText? s.toText = some s := by
  have hlevel : (Json.ofText s.level).toText? = some s.level := rfl
  calc ofText? s.toText
      = ofJson? s.toJson := by rw [ofText?, toText, Json.read?_toPretty s.wellFormed_toJson, Option.bind_some]
    _ = some s := by
      unfold ofJson?
      rw [someFields?_toJson]
      simp only [fieldOr, Json.toCount?_ofNat hminutes, Json.toCount?_ofNat hworkers, hlevel]

/-- What comes of loading settings that can be read is decided by the check. -/
theorem load_text {text : String} {s : Settings} (h : ofText? text = some s) :
    load (.text text) = s.check.map fun _ => s := by
  unfold load
  simp only [loadWith, h]
  cases s.check with
  | ok u => rfl
  | error f => rfl

/-- Nothing is loaded without being checked. -/
theorem check_of_load {file : SettingsFile} {s : Settings} (h : load file = .ok s) : s.check = .ok () := by
  cases file with
  | absent | unreadable => cases h
  | text text =>
    -- a text that is read as no settings is not loaded, and settings that are read are checked first
    cases hread : ofText? text with
    | none =>
      unfold load at h
      simp only [loadWith, hread] at h
      cases h
    | some s' =>
      rw [load_text hread] at h
      cases hcheck : s'.check with
      | ok u =>
        rw [hcheck] at h
        cases h
        exact hcheck
      | error f =>
        rw [hcheck] at h
        cases h

/-- Where something can be loaded, it counts. -/
theorem loadOrDefault_of_load {file : SettingsFile} {s : Settings} (h : load file = .ok s) :
    loadOrDefault file = s := by
  rw [loadOrDefault, h]

/-- Where nothing can be loaded, the defaults count. -/
theorem loadOrDefault_of_not_load {file : SettingsFile} (h : ∀ s, load file ≠ .ok s) :
    loadOrDefault file = default := by
  unfold loadOrDefault
  cases hload : load file with
  | ok s => exact absurd hload (h s)
  | error f => rfl

/-- The defaults pass the check. -/
theorem check_default : default.check = .ok () := by decide +kernel

/-- **Settings files.** Settings that were saved are loaded exactly as they were if they pass the check, and otherwise
loading answers with the fault that the check finds. Whatever file there is, what is loaded from it passes the check and
is what counts, and where nothing can be loaded the defaults count. These pass the check as well, so one always has
acceptable settings. -/
theorem load_save (s : Settings) (hminutes : s.minutes < wordEnd) (hworkers : s.workers < wordEnd)
    (file : SettingsFile) :
    load s.save = s.check.map (fun _ => s) ∧
      (∀ loaded, load file = .ok loaded → loaded.check = .ok () ∧ loadOrDefault file = loaded) ∧
      ((∀ loaded, load file ≠ .ok loaded) → loadOrDefault file = default) ∧
      (loadOrDefault file).check = .ok () := by
  refine ⟨?_, fun loaded h => ⟨check_of_load h, loadOrDefault_of_load h⟩, loadOrDefault_of_not_load, ?_⟩
  · calc load s.save
        = load (.text s.toText) := by rw [save, SettingsFile.ofBytes_toUTF8]
      _ = s.check.map (fun _ => s) := load_text (ofText?_toText hminutes hworkers)
  -- whatever the file is, something can be loaded or nothing can
  · by_cases h : ∃ loaded, load file = .ok loaded
    · obtain ⟨loaded, h⟩ := h
      rw [loadOrDefault_of_load h]
      exact check_of_load h
    · rw [loadOrDefault_of_not_load fun loaded hloaded => h ⟨loaded, hloaded⟩]
      exact check_default

/-- The greatest counts there are, and a level of quotes, a line break, a control character and letters beyond ASCII. -/
def oddSettings : Settings := ⟨wordEnd - 1, wordEnd - 1, "\"C:\\\x01\n\" Größe 川"⟩

/-- A file with the names of the settings left out. -/
def positionalFile : SettingsFile := .text "[15, 2]"

/-- The odd settings are refused for their interval and not for their text. The other file is loaded, with the usual
level. -/
theorem load_save_odd : load oddSettings.save =
      .error (.invalid "update_interval_minutes must be at most 527040") ∧
    loadOrDefault positionalFile = ⟨15, 2, "info"⟩ ∧ (loadOrDefault positionalFile).check = .ok () := by
  have hloaded : load positionalFile = .ok ⟨15, 2, "info"⟩ := by decide +kernel
  have hfaithful := load_save oddSettings (by decide) (by decide) positionalFile
  have hcheck : oddSettings.check = .error (.invalid "update_interval_minutes must be at most 527040") := by
    decide +kernel
  refine ⟨?_, (hfaithful.2.1 _ hloaded).2, hfaithful.2.2.2⟩
  rw [hfaithful.1, hcheck]
  rfl

end Settings

end SensorCatalog
