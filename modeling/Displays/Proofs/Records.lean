import Displays.Options
import Displays.Proofs.Printing

/-!
# Options as values

Options that are written as a value are read back, apart from the scale, which comes back as its
numeral is read. Whatever options are read from a value fit into their words, as those do that are
written.
-/

namespace Displays

open Json Decimal

namespace Json

variable {n : Int} {r : Bounds}

private theorem Numeral.int?_ofInt (h : n ∈ r) : (Numeral.ofInt n).int? r = some n := by
  have hmagnitude : ofDigits 0 (toDigits n.natAbs) = n.natAbs := ofDigits_toDigits n.natAbs
  have hwhole : ¬ (n < 0 ∧ n.natAbs = 0) := by omega
  have hvalue : (if n < 0 then -(n.natAbs : Int) else n.natAbs) = n := by
    split <;> omega
  simp only [int?, ofInt, hmagnitude, ne_eq, not_true_eq_false, false_or, decide_eq_true_eq, hwhole,
    if_false, hvalue, h, if_true]

namespace Value

/-- A whole number within the bounds is read back. -/
theorem int?_ofInt (h : n ∈ r) : (Value.ofInt n).int? r = some n :=
  Numeral.int?_ofInt h

/-- A natural number within the bounds is read back. -/
theorem nat?_ofInt {n bits : Nat} (h : (n : Int) ∈ Bounds.unsigned bits) :
    (Value.ofInt n).nat? bits = some n := by
  rw [nat?, int?_ofInt h]
  rfl

private theorem text?_ofText (s : String) : (Value.ofText s).text? = some s := by
  rw [ofText, text?, text?_escape, Option.map_some, String.ofList_toList]

private theorem choice?_ofText {α : Type} (ofName? : String → Option α) (s : String) :
    (Value.ofText s).choice? ofName? = ofName? s := by
  change (Value.ofText s).text?.bind ofName? = _
  rw [text?_ofText, Option.bind_some]

/-- The members of an object come back in their order and with their names. -/
theorem members?_ofMembers (members : List (String × Value)) :
    (Value.ofMembers members).members? = some members := by
  have hname : ∀ m : String × Value,
      (Json.text? (escape m.1.toList)).map (fun name => (String.ofList name, m.2)) = pure m := by
    intro m
    rw [text?_escape, Option.map_some, String.ofList_toList]
    rfl
  rw [ofMembers, members?, List.mapM_map]
  simp only [Function.comp_def, hname]
  exact (List.mapM_pure (f := id)).trans (congrArg some (List.map_id members))

/-- The fields of a record are looked up by their names, one after the other. -/
theorem fields?_ofMembers (fields : List Field) (members : List (String × Value)) :
    (Value.ofMembers members).fields? fields = fields.mapM fun f => member? members f.name := by
  change ((Value.ofMembers members).members?.bind fun members =>
    fields.mapM fun (f : Field) => member? members f.name) = _
  rw [members?_ofMembers, Option.bind_some]

end Value

end Json

/-- A kind of device is read back from its name. -/
theorem FormFactor.ofName?_name (f : FormFactor) : ofName? f.name = some f := by
  cases f <;> rfl

/-- A power mode is read back from its name. -/
theorem PowerMode.ofName?_name (p : PowerMode) : ofName? p.name = some p := by
  cases p <;> rfl

/-- The coordinates fit into words of 32 bits. -/
structure Point.Fits (p : Point) : Prop where
  /-- The horizontal coordinate fits. -/
  x_mem : p.x ∈ Bounds.signed 32
  /-- The vertical coordinate fits. -/
  y_mem : p.y ∈ Bounds.signed 32

/-- The extents fit into words of 32 bits. -/
structure Resolution.Fits (r : Resolution) : Prop where
  /-- The width fits. -/
  width_mem : (r.width : Int) ∈ Bounds.unsigned 32
  /-- The height fits. -/
  height_mem : (r.height : Int) ∈ Bounds.unsigned 32

/-- The numbers of a mode fit into words of 32 bits. -/
structure Mode.Fits (m : Mode) : Prop where
  /-- The resolution fits. -/
  resolution_fits : m.resolution.Fits
  /-- The refresh rate fits. -/
  refresh_mem : (m.refresh : Int) ∈ Bounds.unsigned 32

/-- The numbers of the options fit into words of 32 bits. -/
structure Options.Fits (o : Options) : Prop where
  /-- The position fits. -/
  topLeft_fits : o.topLeft.Fits
  /-- The mode fits, if there is one. -/
  mode_fits : ∀ m ∈ o.mode, m.Fits

/-- A point whose coordinates fit is read back. -/
theorem Point.ofValue?_toValue {p : Point} (h : p.Fits) : ofValue? p.toValue = some p := by
  have hfields : p.toValue.fields? [⟨"x", false⟩, ⟨"y", false⟩] =
      some [some (.ofInt p.x), some (.ofInt p.y)] := by
    rw [toValue, Value.fields?_ofMembers]
    rfl
  rw [ofValue?, hfields]
  simp only [Option.bind_eq_bind, Option.bind_some, Value.int?_ofInt h.x_mem,
    Value.int?_ofInt h.y_mem]
  rfl

/-- A resolution that fits is read back. -/
theorem Resolution.ofValue?_toValue {r : Resolution} (h : r.Fits) :
    ofValue? r.toValue = some r := by
  have hfields : r.toValue.fields? [⟨"width", false⟩, ⟨"height", false⟩] =
      some [some (.ofInt r.width), some (.ofInt r.height)] := by
    rw [toValue, Value.fields?_ofMembers]
    rfl
  rw [ofValue?, hfields]
  simp only [Option.bind_eq_bind, Option.bind_some, Value.nat?_ofInt h.width_mem,
    Value.nat?_ofInt h.height_mem]
  rfl

/-- A mode that fits is read back. -/
theorem Mode.ofValue?_toValue {m : Mode} (h : m.Fits) : ofValue? m.toValue = some m := by
  have hfields : m.toValue.fields? [⟨"resolution", false⟩, ⟨"refresh_rate_millihz", false⟩] =
      some [some m.resolution.toValue, some (.ofInt m.refresh)] := by
    rw [toValue, Value.fields?_ofMembers]
    rfl
  rw [ofValue?, hfields]
  simp only [Option.bind_eq_bind, Option.bind_some,
    Resolution.ofValue?_toValue h.resolution_fits, Value.nat?_ofInt h.refresh_mem]
  rfl

namespace Options

variable {o : Options}

/-- Written options come back with the scale as its numeral is read. -/
theorem ofValue?_toValue (h : o.Fits) :
    ofValue? o.toValue = (Value.ofFloat o.scale).float?.map fun scale => { o with scale } := by
  have hfields : o.toValue.fields?
      [⟨"used", false⟩, ⟨"top_left", false⟩, ⟨"mode", false⟩, ⟨"scale", false⟩,
        ⟨"form_factor", false⟩, ⟨"power_mode", false⟩] =
      some [some (.bool o.used), some o.topLeft.toValue,
        some (o.mode.elim .null Mode.toValue), some (.ofFloat o.scale),
        some (.ofText o.form.name), some (.ofText o.power.name)] := by
    rw [toValue, Value.fields?_ofMembers]
    cases o.mode <;> rfl
  have hmode : Value.optional? Mode.ofValue? (some (o.mode.elim .null Mode.toValue)) =
      some o.mode := by
    cases hm : o.mode with
    | none => rfl
    | some m =>
      change (Mode.ofValue? m.toValue).map some = _
      rw [Mode.ofValue?_toValue (h.mode_fits m hm), Option.map_some]
  rw [ofValue?, hfields]
  simp only [Option.bind_eq_bind, Option.bind_some, Value.bool?,
    Point.ofValue?_toValue h.topLeft_fits, hmode, Value.choice?_ofText, FormFactor.ofName?_name,
    PowerMode.ofName?_name]
  cases (Value.ofFloat o.scale).float? <;> rfl

end Options

/-! ## What is read fits -/

namespace Json

variable {n : Int} {r : Bounds} {v : Value}

/-- A whole number that is read is within the bounds. -/
theorem Numeral.mem_of_int? {numeral : Numeral} (h : numeral.int? r = some n) : n ∈ r := by
  simp only [int?] at h
  split at h
  · cases h
  · obtain ⟨hmem, hvalue⟩ := Option.ite_none_right_eq_some.mp h
    obtain rfl := Option.some.inj hvalue
    exact hmem

private theorem Value.mem_of_int? (h : v.int? r = some n) : n ∈ r := by
  cases v with
  | number numeral => exact Numeral.mem_of_int? h
  | _ => cases h

/-- A natural number that is read is within the bounds. -/
theorem Value.mem_of_nat? {k bits : Nat} (h : v.nat? bits = some k) :
    (k : Int) ∈ Bounds.unsigned bits := by
  obtain ⟨n, hn, rfl⟩ := Option.map_eq_some_iff.mp h
  have hmem := mem_of_int? hn
  rwa [Int.toNat_of_nonneg hmem.1]

/-- A scale is read from a numeral. -/
theorem Value.exists_numeral_of_float? {x : Float} (h : v.float? = some x) :
    ∃ n : Numeral, n.float? = some x := by
  cases v with
  | number numeral => exact ⟨numeral, h⟩
  | _ => cases h

end Json

variable {v : Value}

/-- A point that is read fits. -/
theorem Point.fits_of_ofValue? {p : Point} (h : ofValue? v = some p) : p.Fits := by
  obtain ⟨fields, -, h⟩ := Option.bind_eq_some_iff.mp h
  split at h
  · obtain ⟨x, hx, h⟩ := Option.bind_eq_some_iff.mp h
    obtain ⟨y, hy, h⟩ := Option.bind_eq_some_iff.mp h
    obtain rfl := Option.some.inj h
    exact ⟨Value.mem_of_int? hx, Value.mem_of_int? hy⟩
  · cases h

/-- A resolution that is read fits. -/
theorem Resolution.fits_of_ofValue? {r : Resolution} (h : ofValue? v = some r) : r.Fits := by
  obtain ⟨fields, -, h⟩ := Option.bind_eq_some_iff.mp h
  split at h
  · obtain ⟨width, hwidth, h⟩ := Option.bind_eq_some_iff.mp h
    obtain ⟨height, hheight, h⟩ := Option.bind_eq_some_iff.mp h
    obtain rfl := Option.some.inj h
    exact ⟨Value.mem_of_nat? hwidth, Value.mem_of_nat? hheight⟩
  · cases h

/-- A mode that is read fits. -/
theorem Mode.fits_of_ofValue? {m : Mode} (h : ofValue? v = some m) : m.Fits := by
  obtain ⟨fields, -, h⟩ := Option.bind_eq_some_iff.mp h
  split at h
  · obtain ⟨resolution, hresolution, h⟩ := Option.bind_eq_some_iff.mp h
    obtain ⟨refresh, hrefresh, h⟩ := Option.bind_eq_some_iff.mp h
    obtain rfl := Option.some.inj h
    exact ⟨Resolution.fits_of_ofValue? hresolution, Value.mem_of_nat? hrefresh⟩
  · cases h

/-- A mode that may be empty or missing fits if there is one. -/
theorem Mode.fits_of_optional? {field : Option Value} {mode : Option Mode}
    (h : Value.optional? Mode.ofValue? field = some mode) : ∀ m ∈ mode, m.Fits := by
  rintro m rfl
  cases field with
  | none => cases h
  | some v =>
    rw [Value.optional?, Value.option?.eq_def] at h
    split at h
    · cases h
    · obtain ⟨m', hm', hsome⟩ := Option.map_eq_some_iff.mp h
      obtain rfl := Option.some.inj hsome
      exact Mode.fits_of_ofValue? hm'

/-- Options that are read from a value fit, and their scale is read from a numeral. -/
theorem Options.of_ofValue? {o : Options} (h : ofValue? v = some o) :
    o.Fits ∧ ∃ n : Numeral, n.float? = some o.scale := by
  obtain ⟨fields, -, h⟩ := Option.bind_eq_some_iff.mp h
  split at h
  · obtain ⟨used, -, h⟩ := Option.bind_eq_some_iff.mp h
    obtain ⟨topLeft, htopLeft, h⟩ := Option.bind_eq_some_iff.mp h
    obtain ⟨mode, hmode, h⟩ := Option.bind_eq_some_iff.mp h
    obtain ⟨scale, hscale, h⟩ := Option.bind_eq_some_iff.mp h
    obtain ⟨form, -, h⟩ := Option.bind_eq_some_iff.mp h
    obtain ⟨power, -, h⟩ := Option.bind_eq_some_iff.mp h
    obtain rfl := Option.some.inj h
    exact ⟨⟨Point.fits_of_ofValue? htopLeft, Mode.fits_of_optional? hmode⟩,
      Value.exists_numeral_of_float? hscale⟩
  · cases h

end Displays
