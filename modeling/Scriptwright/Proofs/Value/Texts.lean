import Scriptwright.Value.Encode
import Scriptwright.Proofs.Text.Composable
import Scriptwright.Proofs.Value.Everywhere

/-!
# The texts of a value

`Value.everyText q` says that a value is finite and that all texts in it, keys included, have `q`.
If `q` gives a composable property, then the display text of such a value has the property, and so
has its text as data.
-/

namespace Scriptwright

open Text

/-! ## Numbers and dates -/

theorem Text.plain_padded (width n : Nat) : Plain (padded width n) :=
  plain_ofList (isPlain_of_mem_append (isPlain_of_mem_replicate rfl _) isPlain_of_mem_toDigits)

namespace Double

theorem isPlain_of_mem_positional {digits : List Char} (position : Int)
    (h : ∀ c ∈ digits, isPlain c = true) :
    ∀ c ∈ positional digits position, isPlain c = true := by
  have hzeros : ∀ n, ∀ c ∈ zeros n, isPlain c = true := isPlain_of_mem_replicate rfl
  unfold positional
  dsimp only
  split_ifs
  · exact isPlain_of_mem_cons rfl (isPlain_of_mem_cons rfl (isPlain_of_mem_append (hzeros _) h))
  · have hpoint : ∀ c ∈ ['.', '0'], isPlain c = true := List.all_eq_true.mp rfl
    exact isPlain_of_mem_append (isPlain_of_mem_append h (hzeros _)) hpoint
  · exact isPlain_of_mem_append (fun c hc => h c (List.mem_of_mem_take hc))
      (isPlain_of_mem_cons rfl fun c hc => h c (List.mem_of_mem_drop hc))

theorem isPlain_of_mem_scientific {digits : List Char} (exponent : Int)
    (h : ∀ c ∈ digits, isPlain c = true) :
    ∀ c ∈ scientific digits exponent, isPlain c = true := by
  have htail : ∀ c ∈ digits.drop 1, isPlain c = true := fun c hc => h c (List.mem_of_mem_drop hc)
  have hfraction : ∀ c ∈ if (digits.drop 1).isEmpty then [] else '.' :: digits.drop 1,
      isPlain c = true := by
    split_ifs
    · simp
    · exact isPlain_of_mem_cons rfl htail
  have hsign : isPlain (if exponent < 0 then '-' else '+') = true := by
    split_ifs <;> rfl
  have hsize : ∀ c ∈ zeros (2 - (Decimal.digitsOf exponent.natAbs).length) ++
      Decimal.digitsOf exponent.natAbs, isPlain c = true :=
        isPlain_of_mem_append (isPlain_of_mem_replicate rfl _) isPlain_of_mem_toDigits
  have hexponent := isPlain_of_mem_cons (show isPlain 'e' = true from rfl)
    (isPlain_of_mem_cons hsign hsize)
  have hleading : ∀ c ∈ digits.take 1, isPlain c = true := fun c hc => h c (List.mem_of_mem_take hc)
  have hall := isPlain_of_mem_append (isPlain_of_mem_append hleading hfraction) hexponent
  unfold scientific
  simpa only [List.append_assoc, List.cons_append] using hall

theorem plain_text {special : Special} (hinf : Plain special.infinity)
    (hminus : Plain special.minusInfinity) (hnan : Plain special.notANumber) (x : Double) :
    Plain (x.text special) := by
  unfold text
  cases x.form with
  | nan => exact hnan
  | infinite s =>
    dsimp only
    split_ifs
    · exact hminus
    · exact hinf
  | finite s m q =>
    have hdigits : ∀ c ∈ Decimal.digitsOf
        (Decimal.shortest m q (m == exponentWeight && decide (-1074 < q))).digits,
          isPlain c = true := isPlain_of_mem_toDigits
    refine plain_ofList ?_
    split_ifs
    · exact List.all_eq_true.mp rfl
    · exact isPlain_of_mem_cons rfl (isPlain_of_mem_positional _ hdigits)
    · exact isPlain_of_mem_cons rfl (isPlain_of_mem_scientific _ hdigits)
    · exact List.all_eq_true.mp rfl
    · exact isPlain_of_mem_positional _ hdigits
    · exact isPlain_of_mem_scientific _ hdigits

theorem plain_shown (x : Double) : Plain (x.text Value.shownSpecial) :=
  plain_text (by decide) (by decide) (by decide) x

theorem plain_encoded (x : Double) : Plain (x.text Value.encodedSpecial) :=
  plain_text (by decide) (by decide) (by decide) x

end Double

theorem Date.plain_text (d : Date) : Plain d.text := by
  unfold Date.text
  simp only [plain_append]
  exact ⟨⟨⟨⟨plain_padded 4 d.year, by decide⟩, plain_padded 2 d.month⟩, by decide⟩,
    plain_padded 2 d.day⟩

theorem Moment.plain_offsetText (s : Int) : Plain (offsetText s) := by
  have hsign : Plain (if s < 0 then "-" else "+") := by
    split_ifs <;> decide
  have hseconds : Plain (if s.natAbs % 60 = 0 then "" else ":" ++ padded 2 (s.natAbs % 60)) := by
    split_ifs
    · decide
    · exact plain_append.mpr ⟨by decide, plain_padded _ _⟩
  unfold offsetText
  simp only [plain_append]
  exact ⟨⟨⟨⟨hsign, plain_padded _ _⟩, by decide⟩, plain_padded _ _⟩, hseconds⟩

theorem Moment.plain_text (t : Moment) : Plain t.text := by
  have hmicro : Plain (if t.micro = 0 then "" else "." ++ padded 6 t.micro) := by
    split_ifs
    · decide
    · exact plain_append.mpr ⟨by decide, plain_padded _ _⟩
  have hoffset : Plain ((t.offset.map offsetText).getD "") := by
    cases t.offset with
    | none => exact (by decide : Plain "")
    | some s => exact plain_offsetText s
  unfold Moment.text
  simp only [plain_append]
  refine ⟨⟨⟨⟨⟨⟨⟨⟨t.date.plain_text, by decide⟩, plain_padded _ _⟩, ?_⟩, plain_padded _ _⟩, ?_⟩,
    plain_padded _ _⟩, hmicro⟩, hoffset⟩
  · decide
  · decide

namespace Text.Composable

variable {P : String → Prop} (hP : Composable P)
include hP

theorem dateInner (d : Date) : P d.inner := by
  have hyear := plain_nat d.year
  have hmonth := plain_nat d.month
  have hday := plain_nat d.day
  unfold Date.inner
  generalize toString d.year = year at *
  generalize toString d.month = month at *
  generalize toString d.day = day at *
  have hfields : Plain (year ++ ", " ++ month ++ ", " ++ day) := by
    simp only [plain_append]
    exact ⟨⟨⟨⟨hyear, by decide⟩, hmonth⟩, by decide⟩, hday⟩
  have heq : "datetime.date(" ++ year ++ ", " ++ month ++ ", " ++ day ++ ")" =
      "datetime.date(" ++ (year ++ ", " ++ month ++ ", " ++ day) ++ ")" := by
    simp only [String.append_assoc]
  rw [heq]
  exact hP.call (show Plain "datetime.date" by decide) rfl (hP.plain hfields)

theorem spanText (s : Int) : P (Moment.spanText s) := by
  have hdays : Plain (if s / 86400 = 0 then "" else
      "days=" ++ toString (s / 86400) ++ if s % 86400 = 0 then "" else ", ") := by
    split_ifs
    · decide
    · exact plain_append.mpr ⟨plain_append.mpr ⟨by decide, plain_int _⟩, by decide⟩
    · exact plain_append.mpr ⟨plain_append.mpr ⟨by decide, plain_int _⟩, by decide⟩
  have hseconds : Plain (if s % 86400 = 0 then "" else "seconds=" ++ toString (s % 86400)) := by
    split_ifs
    · decide
    · exact plain_append.mpr ⟨by decide, plain_int _⟩
  have hboth : P _ := hP.plain (plain_append.mpr ⟨hdays, hseconds⟩)
  unfold Moment.spanText
  dsimp only
  rw [@String.append_assoc "datetime.timedelta("]
  exact hP.call (show Plain "datetime.timedelta" by decide) rfl hboth

theorem zoneText (s : Int) : P (Moment.zoneText s) := by
  unfold Moment.zoneText
  split_ifs
  · exact hP.plain (by decide)
  · exact hP.call (show Plain "datetime.timezone" by decide) rfl (hP.spanText s)

theorem momentInner (t : Moment) : P t.inner := by
  have hfields : ∀ fields : List Nat, P (", ".intercalate (fields.map toString)) := by
    intro fields
    refine hP.intercalate (by decide) fun u hu => ?_
    obtain ⟨n, -, rfl⟩ := List.mem_map.mp hu
    exact hP.plain (plain_nat n)
  unfold Moment.inner
  dsimp only
  rw [@String.append_assoc "datetime.datetime("]
  refine hP.call (show Plain "datetime.datetime" by decide) rfl (hP.append (hfields _) ?_)
  cases t.offset with
  | none => exact hP.empty
  | some s => exact hP.append (hP.plain (by decide)) (hP.zoneText s)

end Text.Composable

/-! ## Values -/

def Scalar.hasTexts (q : String → Bool) : Scalar → Bool
  | .string s => q s
  | .bytes b => q (Text.shownOctets b)
  | _ => true

namespace Value

/-- Whether a value is no knot and, if it is a text, has `q`. A byte string counts as the text that
shows it. -/
def hasTexts (q : String → Bool) : Value → Bool
  | .string s => q s
  | .bytes b => q (Text.shownOctets b)
  | .set ms => ms.all (Scalar.hasTexts q)
  | .knot _ _ _ => false
  | _ => true

/-- Whether a value is finite and all texts in it, keys included, have `q`. -/
def everyText (q : String → Bool) (v : Value) : Bool := v.everywhere (hasTexts q)

/-! ## Parts -/

variable {q : String → Bool}

theorem head_of_everyText {v : Value} (h : v.everyText q = true) : v.head = v := by
  cases v with
  | knot => cases h
  | _ => rfl

theorem everyText_of_head_eq {v w : Value} (h : v.everyText q = true) (hw : v.head = w) :
    w.everyText q = true := by
  rw [← hw, head_of_everyText h]
  exact h

theorem everyText_of_get? {es : Fields} {name : String} {v : Value}
    (h : (map es).everyText q = true) (hv : Fields.get? es name = some v) : v.everyText q = true :=
  everywhere_of_get? h hv

theorem everyText_getD {es : Fields} {other : Value} (h : (map es).everyText q = true)
    (hother : other.everyText q = true) (name : String) :
    (Fields.getD es name other).everyText q = true :=
  everywhere_getD h hother name

theorem everyText_get {es : Fields} (h : (map es).everyText q = true) (name : String) :
    (Fields.get es name).everyText q = true :=
  everyText_getD h rfl name

theorem everyText_scalar {s : Scalar} (h : s.hasTexts q = true) : s.value.everyText q = true := by
  cases s <;> exact h

/-- Whether all characters of a text have `q`; anything but a text has none. -/
def charsHave (q : String → Bool) : Value → Bool
  | .string s => s.toList.all fun c => q (String.singleton c)
  | _ => true

theorem everyText_of_mem_elements {v w : Value} {vs : List Value} (hv : v.everyText q = true)
    (hchars : v.charsHave q = true) (h : v.elements = .ok vs) (hw : w ∈ vs) :
    w.everyText q = true := by
  unfold elements at h
  rw [head_of_everyText hv] at h
  cases v with
  | list items =>
    cases h
    exact everywhere_of_mem_items hv hw
  | map entries =>
    cases h
    obtain ⟨e, he, rfl⟩ := List.mem_map.mp hw
    exact everywhere_key_of_mem_entries hv he
  | string s =>
    cases h
    obtain ⟨c, hc, rfl⟩ := List.mem_map.mp hw
    exact List.all_eq_true.mp hchars c hc
  | bytes b =>
    cases h
    obtain ⟨o, -, rfl⟩ := List.mem_map.mp hw
    rfl
  | pair a b =>
    cases h
    obtain ⟨⟨-, ha⟩, hb⟩ : (_ ∧ a.everyText q = true) ∧ b.everyText q = true := by
      simpa only [everyText, everywhere, Bool.and_eq_true] using hv
    simp only [List.mem_cons, List.not_mem_nil, or_false] at hw
    rcases hw with rfl | rfl
    · exact ha
    · exact hb
  | set ms =>
    cases h
    obtain ⟨m, hm, rfl⟩ := List.mem_map.mp hw
    exact everyText_scalar (List.all_eq_true.mp hv m hm)
  | _ => cases h

theorem everyText_of_mem_elementsOrNone {v w : Value} {vs : List Value} (hv : v.everyText q = true)
    (hchars : v.charsHave q = true) (h : v.elementsOrNone = .ok vs) (hw : w ∈ vs) :
    w.everyText q = true := by
  unfold elementsOrNone at h
  split at h
  · exact everyText_of_mem_elements hv hchars h hw
  · cases h
    cases hw

theorem everyText_of_mem_statements {v w : Value} (hv : v.everyText q = true)
    (hw : w ∈ v.statements) :
    w.everyText q = true := by
  unfold statements at hw
  rw [head_of_everyText hv] at hw
  cases v with
  | list items => exact everywhere_of_mem_items hv hw
  | map entries =>
    have hbody := everyText_get hv "body"
    dsimp only at hw
    rw [head_of_everyText hbody] at hw
    cases hlist : Fields.get entries "body" with
    | list items =>
      rw [hlist] at hbody hw
      exact everywhere_of_mem_items hbody hw
    | _ =>
      rw [hlist] at hw
      cases hw
  | _ => cases hw

end Value

section Texts

variable {P : String → Prop} {q : String → Bool}

theorem Text.Composable.scalarInner (hP : Composable P) (hq : ∀ s, q s = true → P s) {x : Scalar}
    (h : x.hasTexts q = true) : P x.inner := by
  cases x with
  | null => exact hP.plain (by decide)
  | bool b => cases b <;> exact hP.plain (by decide)
  | int n => exact hP.plain (plain_int n)
  | float x => exact hP.plain x.plain_shown
  | string s => exact hP.shown (hq s h)
  | bytes b => exact hq _ h
  | date d => exact hP.dateInner d
  | moment t => exact hP.momentInner t

theorem Text.Composable.listText (hP : Composable P) {ts : List String} (h : ∀ t ∈ ts, P t) :
    P (Value.listText ts) :=
  hP.square (hP.intercalate (by decide) h)

theorem Text.Composable.mapText (hP : Composable P) {ts : List String} (h : ∀ t ∈ ts, P t) :
    P (Value.mapText ts) :=
  hP.curly (hP.intercalate (by decide) h)

theorem Text.Composable.setText (hP : Composable P) (hq : ∀ s, q s = true → P s) {ms : List Scalar}
    (h : ms.all (Scalar.hasTexts q) = true) : P (Value.setText ms) := by
  unfold Value.setText
  split_ifs
  · exact hP.call (show Plain "set" by decide) (show "set(" = "set" ++ "(" from rfl) hP.empty
  · refine hP.mapText fun t ht => ?_
    obtain ⟨m, hm, rfl⟩ := List.mem_map.mp ht
    exact hP.scalarInner hq (List.all_eq_true.mp h m hm)

mutual

theorem Text.Composable.inner (hP : Composable P) (hq : ∀ s, q s = true → P s) :
    (v : Value) → v.everyText q = true → P v.inner
  | .null, _ => hP.scalarInner hq (x := .null) rfl
  | .bool b, _ => hP.scalarInner hq (x := .bool b) rfl
  | .int n, _ => hP.scalarInner hq (x := .int n) rfl
  | .float x, _ => hP.scalarInner hq (x := .float x) rfl
  | .string s, h => hP.scalarInner hq (x := .string s) h
  | .bytes b, h => hP.scalarInner hq (x := .bytes b) h
  | .date d, _ => hP.scalarInner hq (x := .date d) rfl
  | .moment t, _ => hP.scalarInner hq (x := .moment t) rfl
  | .list vs, h => hP.listText (hP.innerItems hq vs h)
  | .map es, h => hP.mapText (hP.innerEntries hq es h)
  | .pair a b, h => by
    obtain ⟨⟨-, ha⟩, hb⟩ : (_ ∧ a.everyText q = true) ∧ b.everyText q = true := by
      simpa only [Value.everyText, Value.everywhere, Bool.and_eq_true] using h
    have hboth : P (a.inner ++ ", " ++ b.inner) :=
      hP.append (hP.append (hP.inner hq a ha) (hP.plain (by decide))) (hP.inner hq b hb)
    have heq : Value.pairText a.inner b.inner = "(" ++ (a.inner ++ ", " ++ b.inner) ++ ")" := by
      simp only [Value.pairText, String.append_assoc]
    rw [Value.inner, heq]
    exact hP.round hboth
  | .set ms, h => hP.setText hq h
  | .knot _ _ _, h => by cases h

theorem Text.Composable.innerItems (hP : Composable P) (hq : ∀ s, q s = true → P s) :
    (vs : List Value) → Value.everywhereItems (Value.hasTexts q) vs = true →
      ∀ t ∈ Value.innerItems vs, P t
  | [], _ => by simp [Value.innerItems]
  | v :: vs, h => by
    obtain ⟨hv, hvs⟩ := Bool.and_eq_true_iff.mp h
    intro t ht
    rcases List.mem_cons.mp ht with rfl | ht
    · exact hP.inner hq v hv
    · exact hP.innerItems hq vs hvs t ht

theorem Text.Composable.innerEntries (hP : Composable P) (hq : ∀ s, q s = true → P s) :
    (es : List (Value × Value)) → Value.everywhereEntries (Value.hasTexts q) es = true →
      ∀ t ∈ Value.innerEntries es, P t
  | [], _ => by simp [Value.innerEntries]
  | (k, v) :: es, h => by
    obtain ⟨hkv, hes⟩ := Bool.and_eq_true_iff.mp h
    obtain ⟨hk, hv⟩ := Bool.and_eq_true_iff.mp hkv
    intro t ht
    rcases List.mem_cons.mp ht with rfl | ht
    · exact hP.append (hP.append (hP.inner hq k hk) (hP.plain (by decide))) (hP.inner hq v hv)
    · exact hP.innerEntries hq es hes t ht

end

theorem Text.Composable.display (hP : Composable P) (hq : ∀ s, q s = true → P s) {v : Value}
    (h : v.everyText q = true) : P v.display := by
  cases v with
  | string s => exact hq s h
  | date d => exact hP.plain d.plain_text
  | moment t => exact hP.plain t.plain_text
  | _ => exact hP.inner hq _ h

/-! ## Data -/

theorem Value.plain_encodeAtom {v : Value} {t : String} (h : v.encodeAtom = .ok t) : Plain t := by
  cases v with
  | null => cases h; decide
  | bool b => cases b <;> cases h <;> decide
  | int n =>
    obtain ⟨-, rfl⟩ := Value.written_eq_ok_iff.1 h
    exact plain_int n
  | float x => cases h; exact x.plain_encoded
  | _ => cases h

theorem Text.Composable.encodeKey (hP : Composable P) (hq : ∀ s, q s = true → P s) {k : Value}
    {t : String} (hk : k.everyText q = true) (h : k.encodeKey = .ok t) : P t := by
  unfold Value.encodeKey at h
  split at h
  · next s =>
    cases h
    exact hP.encoded (hq s hk)
  · obtain ⟨u, hu, rfl⟩ := exists_of_map_eq_ok h
    exact hP.encoded (hP.plain (Value.plain_encodeAtom hu))

theorem Text.Composable.encodeLeaf (hP : Composable P) (hq : ∀ s, q s = true → P s)
    {style : Value.DataStyle} {v : Value} {t : String} (hv : v.everyText q = true)
    (h : v.encodeLeaf style = .ok t) : P t := by
  unfold Value.encodeLeaf at h
  split at h
  · next s =>
    cases h
    exact hP.encoded (hq s hv)
  · split at h
    · split_ifs at h
      obtain ⟨-, rfl⟩ := Value.written_eq_ok_iff.1 h
      exact hP.encoded (hP.display hq hv)
    · exact hP.plain (Value.plain_encodeAtom h)

mutual

theorem Text.Composable.encode (hP : Composable P) (hq : ∀ s, q s = true → P s)
    {style : Value.DataStyle} (hitem : Plain style.item) (hkey : Plain style.key) :
    (v : Value) → (t : String) → v.everyText q = true → v.encode style = .ok t → P t
  | .list vs, t, hv, h => by
    rw [Value.encode] at h
    cases hitems : Value.encodeItems style vs with
    | error f =>
      rw [hitems] at h
      cases h
    | ok ts =>
      rw [hitems] at h
      cases h
      exact hP.square (hP.intercalate hitem (hP.encodeItems hq hitem hkey vs ts hv hitems))
  | .map es, t, hv, h => by
    rw [Value.encode] at h
    cases hentries : Value.encodeEntries style es with
    | error f =>
      rw [hentries] at h
      cases h
    | ok ts =>
      rw [hentries] at h
      cases h
      exact hP.curly (hP.intercalate hitem (hP.encodeEntries hq hitem hkey es ts hv hentries))
  | .pair a b, t, hv, h => by
    obtain ⟨⟨-, ha⟩, hb⟩ : (_ ∧ a.everyText q = true) ∧ b.everyText q = true := by
      simpa only [Value.everyText, Value.everywhere, Bool.and_eq_true] using hv
    rw [Value.encode] at h
    cases hfirst : a.encode style with
    | error f =>
      rw [hfirst] at h
      cases h
    | ok u =>
      cases hsecond : b.encode style with
      | error f =>
        rw [hfirst, hsecond] at h
        cases h
      | ok w =>
        rw [hfirst, hsecond] at h
        cases h
        refine hP.square (hP.intercalate hitem fun x hx => ?_)
        simp only [List.mem_cons, List.not_mem_nil, or_false] at hx
        rcases hx with rfl | rfl
        · exact hP.encode hq hitem hkey a _ ha hfirst
        · exact hP.encode hq hitem hkey b _ hb hsecond
  | .knot _ _ _, _, hv, _ => by cases hv
  | .null, _, hv, h => hP.encodeLeaf hq hv h
  | .bool _, _, hv, h => hP.encodeLeaf hq hv h
  | .int _, _, hv, h => hP.encodeLeaf hq hv h
  | .float _, _, hv, h => hP.encodeLeaf hq hv h
  | .string _, _, hv, h => hP.encodeLeaf hq hv h
  | .bytes _, _, hv, h => hP.encodeLeaf hq hv h
  | .date _, _, hv, h => hP.encodeLeaf hq hv h
  | .moment _, _, hv, h => hP.encodeLeaf hq hv h
  | .set _, _, hv, h => hP.encodeLeaf hq hv h

theorem Text.Composable.encodeItems (hP : Composable P) (hq : ∀ s, q s = true → P s)
    {style : Value.DataStyle} (hitem : Plain style.item) (hkey : Plain style.key) :
    (vs : List Value) → (ts : List String) → Value.everywhereItems (Value.hasTexts q) vs = true →
      Value.encodeItems style vs = .ok ts → ∀ t ∈ ts, P t
  | [], ts, _, h => by
    cases h
    simp
  | v :: vs, ts, hv, h => by
    obtain ⟨hv, hvs⟩ := Bool.and_eq_true_iff.mp hv
    rw [Value.encodeItems] at h
    cases hfirst : v.encode style with
    | error f =>
      rw [hfirst] at h
      cases h
    | ok u =>
      cases hrest : Value.encodeItems style vs with
      | error f =>
        rw [hfirst, hrest] at h
        cases h
      | ok us =>
        rw [hfirst, hrest] at h
        cases h
        intro t ht
        rcases List.mem_cons.mp ht with rfl | ht
        · exact hP.encode hq hitem hkey v _ hv hfirst
        · exact hP.encodeItems hq hitem hkey vs us hvs hrest t ht

theorem Text.Composable.encodeEntries (hP : Composable P) (hq : ∀ s, q s = true → P s)
    {style : Value.DataStyle} (hitem : Plain style.item) (hkey : Plain style.key) :
    (es : List (Value × Value)) → (ts : List String) →
      Value.everywhereEntries (Value.hasTexts q) es = true →
      Value.encodeEntries style es = .ok ts → ∀ t ∈ ts, P t
  | [], ts, _, h => by
    cases h
    simp
  | (k, v) :: es, ts, hv, h => by
    obtain ⟨hkv, hes⟩ := Bool.and_eq_true_iff.mp hv
    obtain ⟨hk, hv⟩ := Bool.and_eq_true_iff.mp hkv
    rw [Value.encodeEntries] at h
    cases hname : k.encodeKey with
    | error f =>
      rw [hname] at h
      cases h
    | ok name =>
      cases hfirst : v.encode style with
      | error f =>
        rw [hname, hfirst] at h
        cases h
      | ok u =>
        cases hrest : Value.encodeEntries style es with
        | error f =>
          rw [hname, hfirst, hrest] at h
          cases h
        | ok us =>
          rw [hname, hfirst, hrest] at h
          cases h
          intro t ht
          rcases List.mem_cons.mp ht with rfl | ht
          · have hkeyed := hP.append (hP.encodeKey hq hk hname) (hP.plain hkey)
            exact hP.append hkeyed (hP.encode hq hitem hkey v _ hv hfirst)
          · exact hP.encodeEntries hq hitem hkey es us hes hrest t ht

end

end Texts

end Scriptwright
