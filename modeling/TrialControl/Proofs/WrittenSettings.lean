import TrialControl.Form.Settings
import TrialControl.Proofs.Forms
import TrialControl.Proofs.Renderings

/-!
# Settings are read back

Settings are written with the whole milliseconds of their durations, and with as many of them as 64 bits hold. What
is dropped does not turn the order of two durations around, so that the settings that are read back can be used as
those that were written. They are written without any loss.
-/

namespace TrialControl

namespace Duration

variable {d e : Duration}

def inMillis (d : Duration) : Duration :=
  ⟨min (d.nanos / 1_000_000) (UInt64.size - 1) * 1_000_000, by
    have size : 0 < UInt64.size := by decide
    omega⟩

theorem ofMillis_boundedMillis (d : Duration) : ofMillis d.boundedMillis = d.inMillis := by
  have bounded : d.boundedMillis.toNat = min (d.nanos / 1_000_000) (UInt64.size - 1) := by
    refine UInt64.toNat_ofNat_of_lt' ?_
    show min d.millis 18_446_744_073_709_551_615 < 18_446_744_073_709_551_616
    omega
  unfold ofMillis inMillis
  simp only [bounded]

theorem inMillis_ofMillis (ms : UInt64) : (ofMillis ms).inMillis = ofMillis ms := by
  have bound : ms.toNat < UInt64.size := ms.toNat_lt_size
  have whole : min (ms.toNat * 1_000_000 / 1_000_000) (UInt64.size - 1) = ms.toNat := by omega
  unfold inMillis ofMillis
  simp only [whole]

theorem inMillis_mono (h : d ≤ e) : d.inMillis ≤ e.inMillis := by
  have h : d.nanos ≤ e.nanos := h
  have whole : d.nanos / 1_000_000 ≤ e.nanos / 1_000_000 := Nat.div_le_div_right h
  show min (d.nanos / 1_000_000) (UInt64.size - 1) * 1_000_000 ≤ min (e.nanos / 1_000_000) (UInt64.size - 1) * 1_000_000
  omega

theorem inMillis_of_ofRecord? {doc : Document} {name : String} {default : Duration}
    (found : ofRecord? doc name default = some d) : d.inMillis = d := by
  obtain ⟨ms, -, rfl⟩ := Option.map_eq_some_iff.mp found
  exact inMillis_ofMillis ms

end Duration

instance : LawfulForm LogFormat := ⟨fun f => by cases f <;> rfl⟩

instance : LawfulForm LoggingSettings where
  decode_encode s := by
    refine (Document.record?_written ..).trans ?_
    simp

instance : LawfulForm WorkloadDefaults where
  decode_encode d := by
    refine (Document.record?_written ..).trans ?_
    simp

theorem Document.exists_of_record? {α : Type} {d : Document} {names : List String} {read : Document → Option α} {a : α}
    (found : d.record? names read = some a) : ∃ fields, read fields = some a := by
  unfold record? at found
  split at found
  · exact ⟨_, found⟩
  · split at found
    · exact ⟨_, found⟩
    · cases found
  · cases found

namespace Settings

variable {s : Settings}

def inMillis (s : Settings) : Settings :=
  { s with grace := s.grace.inMillis, firstDelay := s.firstDelay.inMillis, greatestDelay := s.greatestDelay.inMillis }

theorem decode_written (s : Settings) : decode? (encode s : Document) = some s.inMillis := by
  refine (Document.record?_written ..).trans ?_
  simp [Duration.ofRecord?, Duration.ofMillis_boundedMillis, inMillis]

theorem inMillis_of_decode? {doc : Document} (found : decode? doc = some s) : s.inMillis = s := by
  obtain ⟨fields, found⟩ := Document.exists_of_record? found
  simp only [bind, Option.bind_eq_some_iff] at found
  obtain ⟨grace, whole, _, -, first, whole', greatest, whole'', _, -, _, -, same⟩ := found
  obtain rfl := Option.some.inj same
  simp only [inMillis, Duration.inMillis_of_ofRecord? whole, Duration.inMillis_of_ofRecord? whole',
    Duration.inMillis_of_ofRecord? whole'']

theorem ofText_of_decode? {text : String} {doc : Document} (reads : Document.ofText? text = some doc)
    (found : decode? doc = some s) (valid : s.validate = .ok ()) : ofText text = .ok s := by
  unfold ofText
  rw [reads, Option.bind_some, found]
  show s.validate.map (fun _ => s) = .ok s
  rw [valid]
  rfl

theorem exists_of_ofText {text : String} (read : ofText text = .ok s) : ∃ doc : Document, decode? doc = some s := by
  unfold ofText at read
  split at read
  · next r found =>
    obtain ⟨doc, -, found⟩ := Option.bind_eq_some_iff.mp found
    cases verdict : r.validate with
    | error e => rw [verdict] at read; cases read
    | ok _ =>
      rw [verdict] at read
      cases read
      exact ⟨doc, found⟩
  · cases read

theorem validate_inMillis (valid : s.validate = .ok ()) : s.inMillis.validate = .ok () := by
  obtain ⟨image, concurrency, order⟩ := validate_eq_ok_iff.mp valid
  exact validate_eq_ok_iff.mpr ⟨image, concurrency, Duration.inMillis_mono order⟩

theorem readable_encode (s : Settings) : (encode s : Json).Readable Json.maxDepth := by
  have number (n : UInt64) (room : Nat) : (encode n : Json).Readable room :=
    ⟨by omega, Int.ofNat_lt.mpr n.toNat_lt_size⟩
  have policy : (encode s.workload.pullPolicy : Json).Readable 125 := by cases s.workload.pullPolicy <;> trivial
  have format : (encode s.logging.format : Json).Readable 125 := by cases s.logging.format <;> trivial
  have workload : (encode s.workload : Json).Readable 126 := Json.readable_ofFields (by simp [policy]; trivial)
  have logging : (encode s.logging : Json).Readable 126 := Json.readable_ofFields (by simp [format]; trivial)
  exact Json.readable_ofFields (by simp [number, workload, logging])

/-- Valid settings are read back from what is written, and from every other text of their JSON form, with their
durations in milliseconds. Settings that were read from a text lose nothing. -/
theorem settings_survive_writing (valid : s.validate = .ok ()) :
    ofText (encode s).render = .ok s.inMillis ∧
    (∀ text, Document.ofText? text = some (encode s : Document) → ofText text = .ok s.inMillis) ∧
    ∀ source, ofText source = .ok s → s.inMillis = s := by
  have read (text : String) (reads : Document.ofText? text = some (encode s : Document)) :
      ofText text = .ok s.inMillis :=
    ofText_of_decode? reads (decode_written s) (validate_inMillis valid)
  refine ⟨read _ (Json.ofText?_render (readable_encode s)), read, fun source read => ?_⟩
  obtain ⟨doc, found⟩ := exists_of_ofText read
  exact inMillis_of_decode? found

/-- A grace of 1.5 ms is read back as 1 ms, and delays that 64 bits do not hold become equal. -/
theorem long_delays_survive_writing :
    let s : Settings := { Settings.standard with
      grace := .saturated 1_500_000
      firstDelay := .saturated 18_446_744_073_709_551_617_000_000
      greatestDelay := .longest }
    s.validate = .ok () ∧ ofText (encode s).render = .ok s.inMillis ∧ s.inMillis.grace = .ofMillis 1 ∧
      s.inMillis.firstDelay = s.inMillis.greatestDelay := by
  intro s
  have valid : s.validate = .ok () := by decide +kernel
  exact ⟨valid, (settings_survive_writing valid).1, by decide +kernel, by decide +kernel⟩

end Settings

end TrialControl
