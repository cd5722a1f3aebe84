import MachineFacts.Proofs.JsonText

/-! The compact and the indented form of a value are texts that denote it. In the compact form
nothing breaks the line, as control characters are always escaped. -/

namespace MachineFacts

@[elab_as_elim]
theorem Json.induct {motive : Json → Prop} (number : ∀ n, motive (.number n))
    (truth : ∀ b, motive (.truth b)) (text : ∀ t, motive (.text t))
    (array : ∀ items, (∀ j ∈ items, motive j) → motive (.array items))
    (object : ∀ fields, (∀ f ∈ fields, motive f.2) → motive (.object fields)) (j : Json) :
    motive j :=
  @Json.rec motive (fun items => ∀ j ∈ items, motive j) (fun fields => ∀ f ∈ fields, motive f.2)
    (fun f => motive f.2) number truth text array object
    (fun _ h => absurd h List.not_mem_nil)
    (fun _ _ hj hjs => List.forall_mem_cons.mpr ⟨hj, hjs⟩)
    (fun _ h => absurd h List.not_mem_nil)
    (fun _ _ hf hfs => List.forall_mem_cons.mpr ⟨hf, hfs⟩)
    (fun _ _ h => h) j

theorem head?_ofNat {n : Nat} (hn : 0 < n) : (Text.ofNat n).head? ≠ some '0' := by
  induction n using Nat.strong_induction_on with
  | h n ih =>
    by_cases hlt : n < 10
    · rw [Text.ofNat, Nat.toDigits_of_lt_base hlt]
      have hdigit : ∀ m < 10, 0 < m → m.digitChar ≠ '0' := by decide
      simpa using hdigit n hlt hn
    · have hstep : Text.ofNat n = Text.ofNat (n / 10) ++ [(n % 10).digitChar] :=
        Nat.toDigits_of_base_le (by decide) (by omega)
      have hhead := ih (n / 10) (by omega) (by omega)
      rw [hstep]
      cases hds : Text.ofNat (n / 10) with
      | nil => exact absurd hds Nat.toDigits_ne_nil
      | cons d ds => rwa [hds] at hhead

theorem written_number (n : Nat) : Written (.value (.number n)) (Text.ofNat n) := by
  have hzero : (Text.ofNat n).head? = some '0' → Text.ofNat n = ['0'] := by
    intro hhead
    rcases Nat.eq_zero_or_pos n with rfl | hn
    · rfl
    · exact absurd hhead (head?_ofNat hn)
  have hdigits : ∀ c ∈ Text.ofNat n, c.isDigit = true := fun c hc =>
    Nat.isDigit_of_mem_toDigits (by decide) (by decide) hc
  have hvalue : Nat.ofDigitChars 10 (Text.ofNat n) 0 = n := Nat.ofDigitChars_ten_toDigits
  have hwritten := Written.number (show Text.ofNat n ≠ [] from Nat.toDigits_ne_nil) hdigits hzero
  rwa [hvalue] at hwritten

theorem codePoint_control {c : Char} (hc : c.toNat < 0x20) :
    codePoint ['0', '0', hexDigit (c.toNat / 16), hexDigit (c.toNat % 16)] = some c := by
  have hall : ∀ n < 0x20,
      codePoint ['0', '0', hexDigit (n / 16), hexDigit (n % 16)] = some (Char.ofNat n) := by decide
  rw [hall c.toNat hc, Char.ofNat_toNat]

theorem escapeChar_cases (c : Char) :
    (∃ e, shortEscapes.lookup e = some c ∧ 0x20 ≤ e.toNat ∧ escapeChar c = ['\\', e]) ∨
    (c.toNat < 0x20 ∧ escapeChar c =
      ['\\', 'u', '0', '0', hexDigit (c.toNat / 16), hexDigit (c.toNat % 16)]) ∨
    (c ≠ '"' ∧ c ≠ '\\' ∧ 0x20 ≤ c.toNat ∧ escapeChar c = [c]) := by
  by_cases hquote : c = '"'
  · subst hquote
    exact .inl ⟨'"', rfl, by decide, rfl⟩
  by_cases hescape : c = '\\'
  · subst hescape
    exact .inl ⟨'\\', rfl, by decide, rfl⟩
  by_cases hback : c = '\x08'
  · subst hback
    exact .inl ⟨'b', rfl, by decide, rfl⟩
  by_cases htab : c = '\t'
  · subst htab
    exact .inl ⟨'t', rfl, by decide, rfl⟩
  by_cases hline : c = '\n'
  · subst hline
    exact .inl ⟨'n', rfl, by decide, rfl⟩
  by_cases hpage : c = '\x0c'
  · subst hpage
    exact .inl ⟨'f', rfl, by decide, rfl⟩
  by_cases hreturn : c = '\r'
  · subst hreturn
    exact .inl ⟨'r', rfl, by decide, rfl⟩
  rw [escapeChar, if_neg hquote, if_neg hescape, if_neg hback, if_neg htab, if_neg hline,
    if_neg hpage, if_neg hreturn]
  by_cases hcontrol : c.toNat < 0x20
  · exact .inr (.inl ⟨hcontrol, if_pos hcontrol⟩)
  · exact .inr (.inr ⟨hquote, hescape, Nat.le_of_not_lt hcontrol, if_neg hcontrol⟩)

theorem spelling_flatMap (t : Text) : Spelling t (t.flatMap escapeChar) := by
  induction t with
  | nil => exact .nil
  | cons c t ih =>
    rw [List.flatMap_cons]
    rcases escapeChar_cases c with ⟨e, he, -, hc⟩ | ⟨hcontrol, hc⟩ | ⟨hquote, hescape, hplain, hc⟩
    · rw [hc]
      exact .short he ih
    · rw [hc]
      exact .code (codePoint_control hcontrol) ih
    · rw [hc]
      exact .plain hquote hescape hplain ih

theorem jsonBlank_nil : JsonBlank [] := by
  intro c hc
  cases hc

theorem jsonBlank_newline (depth : Nat) : JsonBlank (newline depth) := by
  intro c hc
  rcases List.mem_cons.mp hc with rfl | hc
  · rfl
  · rw [List.eq_of_mem_replicate hc]
    rfl

theorem written_text (t : Text) : Written (.value (.text t)) (quoteText t) :=
  .text (spelling_flatMap t)

theorem written_truth (b : Bool) : Written (.value (.truth b)) (truthText b) := .truth b

theorem written_compactItems {j : Json} {js : List Json}
    (h : ∀ i ∈ j :: js, Written (.value i) i.compact) :
    Written (.items (j :: js)) (Json.compactItems (j :: js)) := by
  induction js generalizing j with
  | nil =>
    have hj := h j List.mem_cons_self
    simpa [Json.compactItems] using Written.item jsonBlank_nil hj jsonBlank_nil
  | cons i js ih =>
    obtain ⟨hj, hjs⟩ := List.forall_mem_cons.mp h
    simpa [Json.compactItems] using Written.items jsonBlank_nil hj jsonBlank_nil (ih hjs)

theorem written_compactFields {f : Text × Json} {fs : List (Text × Json)}
    (h : ∀ g ∈ f :: fs, Written (.value g.2) g.2.compact) :
    Written (.fields (f :: fs)) (Json.compactFields (f :: fs)) := by
  induction fs generalizing f with
  | nil =>
    have hf := h f List.mem_cons_self
    simpa [Json.compactFields, quoteText] using
      Written.field jsonBlank_nil (spelling_flatMap f.1) jsonBlank_nil jsonBlank_nil hf
        jsonBlank_nil
  | cons g fs ih =>
    obtain ⟨hf, hfs⟩ := List.forall_mem_cons.mp h
    simpa [Json.compactFields, quoteText] using
      Written.fields jsonBlank_nil (spelling_flatMap f.1) jsonBlank_nil jsonBlank_nil hf
        jsonBlank_nil (ih hfs)

theorem Json.written_compact (j : Json) : Written (.value j) j.compact := by
  induction j using Json.induct with
  | number n => exact written_number n
  | truth b => exact written_truth b
  | text t => exact written_text t
  | array items ih =>
    cases items with
    | nil => exact .noItems jsonBlank_nil
    | cons j js => exact .array (written_compactItems ih)
  | object fields ih =>
    cases fields with
    | nil => exact .noFields jsonBlank_nil
    | cons f fs => exact .object (written_compactFields ih)

theorem written_prettyItems {depth : Nat} {j : Json} {js : List Json} {w z : Text}
    (h : ∀ i ∈ j :: js, Written (.value i) (i.pretty depth)) (hw : JsonBlank w)
    (hz : JsonBlank z) :
    Written (.items (j :: js)) (w ++ (j.pretty depth ++ (Json.prettyItems depth js ++ z))) := by
  induction js generalizing j w with
  | nil => exact .item hw (h j List.mem_cons_self) hz
  | cons i js ih =>
    obtain ⟨hj, hjs⟩ := List.forall_mem_cons.mp h
    simpa [Json.prettyItems] using
      Written.items hw hj jsonBlank_nil (ih hjs (jsonBlank_newline depth))

theorem written_prettyFields {depth : Nat} {f : Text × Json} {fs : List (Text × Json)} {w z : Text}
    (h : ∀ g ∈ f :: fs, Written (.value g.2) (g.2.pretty depth)) (hw : JsonBlank w)
    (hz : JsonBlank z) :
    Written (.fields (f :: fs))
      (w ++ (quoteText f.1 ++
        (": " ++ (f.2.pretty depth ++ (Json.prettyFields depth fs ++ z))))) := by
  have hspace : JsonBlank [' '] := List.forall_mem_singleton.mpr rfl
  induction fs generalizing f w with
  | nil =>
    have hf := h f List.mem_cons_self
    simpa [Json.prettyFields, quoteText] using
      Written.field hw (spelling_flatMap f.1) jsonBlank_nil hspace hf hz
  | cons g fs ih =>
    obtain ⟨hf, hfs⟩ := List.forall_mem_cons.mp h
    simpa [Json.prettyFields, quoteText] using
      Written.fields hw (spelling_flatMap f.1) jsonBlank_nil hspace hf jsonBlank_nil
        (ih hfs (jsonBlank_newline depth))

theorem Json.written_pretty (j : Json) (depth : Nat) :
    Written (.value j) (j.pretty depth) := by
  induction j using Json.induct generalizing depth with
  | number n => exact written_number n
  | truth b => exact written_truth b
  | text t => exact written_text t
  | array items ih =>
    cases items with
    | nil => exact .noItems jsonBlank_nil
    | cons j js =>
      have hitems := written_prettyItems (fun i hi => ih i hi (depth + 1))
        (jsonBlank_newline (depth + 1)) (jsonBlank_newline depth)
      simpa [Json.pretty] using Written.array hitems
  | object fields ih =>
    cases fields with
    | nil => exact .noFields jsonBlank_nil
    | cons f fs =>
      have hfields := written_prettyFields (fun g hg => ih g hg (depth + 1))
        (jsonBlank_newline (depth + 1)) (jsonBlank_newline depth)
      simpa [Json.pretty] using Written.object hfields

/-- Everything in the text can be seen on one line. -/
def NoControls (t : Text) : Prop := ∀ c ∈ t, 0x20 ≤ c.toNat

instance (t : Text) : Decidable (NoControls t) :=
  List.decidableBAll (fun c : Char => 0x20 ≤ c.toNat) t

theorem NoControls.append {t u : Text} (ht : NoControls t) (hu : NoControls u) :
    NoControls (t ++ u) :=
  List.forall_mem_append.mpr ⟨ht, hu⟩

theorem noControls_ofNat (n : Nat) : NoControls (Text.ofNat n) := by
  intro c hc
  have hdigit : c.isDigit = true := Nat.isDigit_of_mem_toDigits (by decide) (by decide) hc
  have hlow : 48 ≤ c.toNat := (Char.isDigit_iff_toNat.mp hdigit).1
  omega

theorem noControls_escapeChar (c : Char) : NoControls (escapeChar c) := by
  rcases escapeChar_cases c with ⟨e, -, he, hc⟩ | ⟨hcontrol, hc⟩ | ⟨-, -, hplain, hc⟩
  · rw [hc]
    exact List.forall_mem_cons.mpr ⟨by decide, List.forall_mem_singleton.mpr he⟩
  · have hall : ∀ n < 0x20,
        NoControls ['\\', 'u', '0', '0', hexDigit (n / 16), hexDigit (n % 16)] := by decide
    rw [hc]
    exact hall c.toNat hcontrol
  · rw [hc]
    exact List.forall_mem_singleton.mpr hplain

theorem noControls_quoteText (t : Text) : NoControls (quoteText t) := by
  have hinner : NoControls (t.flatMap escapeChar) := by
    intro c hc
    obtain ⟨d, -, hd⟩ := List.mem_flatMap.mp hc
    exact noControls_escapeChar d c hd
  have hquote : NoControls "\"" := by decide
  exact (hquote.append hinner).append hquote

theorem noControls_compactItems {js : List Json} (h : ∀ j ∈ js, NoControls j.compact) :
    NoControls (Json.compactItems js) := by
  have hcomma : NoControls "," := by decide
  induction js with
  | nil => exact fun _ hc => absurd hc List.not_mem_nil
  | cons j js ih =>
    obtain ⟨hj, hjs⟩ := List.forall_mem_cons.mp h
    cases js with
    | nil => exact hj
    | cons i js => exact (hj.append hcomma).append (ih hjs)

theorem noControls_compactFields {fs : List (Text × Json)}
    (h : ∀ f ∈ fs, NoControls f.2.compact) : NoControls (Json.compactFields fs) := by
  have hcolon : NoControls ":" := by decide
  have hcomma : NoControls "," := by decide
  induction fs with
  | nil => exact fun _ hc => absurd hc List.not_mem_nil
  | cons f fs ih =>
    obtain ⟨hf, hfs⟩ := List.forall_mem_cons.mp h
    have hfield := ((noControls_quoteText f.1).append hcolon).append hf
    cases fs with
    | nil => exact hfield
    | cons g fs => exact (hfield.append hcomma).append (ih hfs)

theorem Json.noControls_compact (j : Json) : NoControls j.compact := by
  induction j using Json.induct with
  | number n => exact noControls_ofNat n
  | truth b => cases b <;> decide
  | text t => exact noControls_quoteText t
  | array items ih =>
    have hopen : NoControls "[" := by decide
    have hclose : NoControls "]" := by decide
    exact (hopen.append (noControls_compactItems ih)).append hclose
  | object fields ih =>
    have hopen : NoControls "\x7b" := by decide
    have hclose : NoControls "\x7d" := by decide
    exact (hopen.append (noControls_compactFields ih)).append hclose

end MachineFacts
