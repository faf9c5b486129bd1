import MeshFoundation.CommandLine.Listing

/-!
# The lines of a listing of composition data

A listing of composition data has lines of five kinds. How a line begins tells its kind, and what
follows tells all that the line is about, so that a line can be read in one way only
(`Line.text_injective`).

The lines are read from the last one upwards: a model belongs to the next element above it. In this
way the data are found again, whatever number of elements and models they have
(`ofLines?_lines`), and different data have different listings. This is still so when the lines are
printed one after the other, for none of them has a line break in it
(`printed_listing_injective`).
-/

set_option autoImplicit false

namespace MeshFoundation

namespace Text

variable {separator front front' back back' : String} {xs ys : List String}

theorem truth_injective {p q : Bool} (h : truth p = truth q) : p = q := by
  have hall : ∀ p q, truth p = truth q → p = q := by decide
  exact hall p q h

/-! ## Texts that are divided -/

/-- A list is divided in one way only at a sign that does not stand before. -/
theorem eq_of_append_cons {stop : Char} {cs cs' ds ds' : List Char} (hcs : stop ∉ cs)
    (hcs' : stop ∉ cs') (h : cs ++ stop :: ds = cs' ++ stop :: ds') : cs = cs' ∧ ds = ds' := by
  -- If the two lists had different lengths up to the sign, it would stand in the longer part.
  obtain ⟨between, hlonger, hrest⟩ | ⟨between, hlonger, hrest⟩ := List.append_eq_append_iff.mp h
  · cases between with
    | nil => simpa [hlonger] using hrest
    | cons c others =>
      obtain rfl : stop = c := List.head_eq_of_cons_eq hrest
      simp [hlonger] at hcs'
  · cases between with
    | nil => simpa [hlonger, eq_comm] using hrest
    | cons c others =>
      obtain rfl : stop = c := List.head_eq_of_cons_eq hrest
      simp [hlonger] at hcs

/-- A text is divided in one way only by a separator whose first sign does not stand before it. -/
theorem eq_of_separated {stop : Char} (hseparator : separator.toList.head? = some stop)
    (hfront : stop ∉ front.toList) (hfront' : stop ∉ front'.toList)
    (h : front ++ separator ++ back = front' ++ separator ++ back') :
    front = front' ∧ back = back' := by
  obtain ⟨rest, hrest⟩ := List.head?_eq_some_iff.mp hseparator
  have hlist := congrArg String.toList h
  simp only [String.toList_append, hrest, List.append_assoc, List.cons_append] at hlist
  obtain ⟨hbefore, hbehind⟩ := eq_of_append_cons hfront hfront' hlist
  exact ⟨String.toList_inj.mp hbefore, String.toList_inj.mp (List.append_cancel_left hbehind)⟩

theorem decimal_separated {m n : Nat} (hseparator : separator.toList.head? = some ' ')
    (h : decimal m ++ separator ++ back = decimal n ++ separator ++ back') :
    m = n ∧ back = back' := by
  obtain ⟨hnumber, hback⟩ := eq_of_separated hseparator (blank_not_mem_decimal m)
    (blank_not_mem_decimal n) h
  exact ⟨decimal_injective hnumber, hback⟩

theorem hexadecimal_separated {least m n : Nat} (hseparator : separator.toList.head? = some ' ')
    (h : hexadecimal least m ++ separator ++ back = hexadecimal least n ++ separator ++ back') :
    m = n ∧ back = back' := by
  obtain ⟨hnumber, hback⟩ := eq_of_separated hseparator (blank_not_mem_hexadecimal least m)
    (blank_not_mem_hexadecimal least n) h
  exact ⟨hexadecimal_injective hnumber, hback⟩

theorem truth_separated {p q : Bool} (hseparator : separator.toList.head? = some ',')
    (h : truth p ++ separator ++ back = truth q ++ separator ++ back') :
    p = q ∧ back = back' := by
  have hcomma : ∀ value, ',' ∉ (truth value).toList := by decide
  obtain ⟨htruth, hback⟩ := eq_of_separated hseparator (hcomma p) (hcomma q) h
  exact ⟨truth_injective htruth, hback⟩

/-! ## Lines in print -/

/-- What is printed for some lines: each of them with a line break behind it. -/
def printed (lines : List String) : String :=
  String.ofList (lines.flatMap fun line => line.toList ++ ['\n'])

/-- Lines without a line break can be told from what is printed. -/
theorem printed_injective (hx : ∀ line ∈ xs, '\n' ∉ line.toList)
    (hy : ∀ line ∈ ys, '\n' ∉ line.toList) (h : printed xs = printed ys) : xs = ys := by
  have hlist := String.ofList_inj.mp h
  clear h
  induction xs generalizing ys with
  | nil =>
    cases ys with
    | nil => rfl
    | cons second others => simp at hlist
  | cons first rest ih =>
    cases ys with
    | nil => simp at hlist
    | cons second others =>
      simp only [List.flatMap_cons, List.append_assoc, List.cons_append, List.nil_append] at hlist
      obtain ⟨hline, hlines⟩ := eq_of_append_cons (hx first List.mem_cons_self)
        (hy second List.mem_cons_self) hlist
      rw [String.toList_inj.mp hline,
        ih (fun line hmem => hx line (List.mem_cons_of_mem first hmem))
          (fun line hmem => hy line (List.mem_cons_of_mem second hmem)) hlines]

end Text

namespace Composition

/-- A line in the listing of composition data, by what it tells. -/
inductive Line where
  | header (company product version replayCache : UInt16)
  | features (features : Features)
  | element (number : Nat) (location : UInt16)
  | sigModel (model : UInt32)
  | vendorModel (model : UInt32)
  deriving DecidableEq, Repr

namespace Line

/-! ## One line -/

/-- How the lines of a kind begin. -/
def label : Line → String
  | .header .. => "company "
  | .features _ => "features Features \x7b relay: "
  | .element .. => "element "
  | .sigModel _ => "  sig model "
  | .vendorModel _ => "  vendor model "

def headerContent (company product version replayCache : UInt16) : String :=
  Text.hexadecimal 4 company.toNat ++ " product " ++ (Text.hexadecimal 4 product.toNat ++
    " version " ++ (Text.hexadecimal 4 version.toNat ++ " replay cache " ++
      Text.decimal replayCache.toNat))

def featuresContent (f : Features) : String :=
  Text.truth f.relay ++ ", proxy: " ++ (Text.truth f.proxy ++ ", friend: " ++
    (Text.truth f.friend ++ ", low_power: " ++ (Text.truth f.lowPower ++ " \x7d")))

/-- What stands behind the label. -/
def content : Line → String
  | .header company product version replayCache =>
    headerContent company product version replayCache
  | .features f => featuresContent f
  | .element number location =>
    Text.decimal number ++ " location " ++ Text.hexadecimal 4 location.toNat
  | .sigModel model => Text.hexadecimal 4 model.toNat
  | .vendorModel model => Text.hexadecimal 8 model.toNat

def text (line : Line) : String := line.label ++ line.content

variable {a b : Line}

theorem header_injective {c p v r c' p' v' r' : UInt16}
    (h : (header c p v r).content = (header c' p' v' r').content) :
    header c p v r = header c' p' v' r' := by
  obtain ⟨hcompany, h⟩ := Text.hexadecimal_separated rfl h
  obtain ⟨hproduct, h⟩ := Text.hexadecimal_separated rfl h
  obtain ⟨hversion, h⟩ := Text.hexadecimal_separated rfl h
  have hcache := Text.decimal_injective h
  rw [UInt16.toNat_inj.mp hcompany, UInt16.toNat_inj.mp hproduct, UInt16.toNat_inj.mp hversion,
    UInt16.toNat_inj.mp hcache]

theorem features_injective {f g : Features} (h : (features f).content = (features g).content) :
    features f = features g := by
  obtain ⟨relay, proxy, friend, lowPower⟩ := f
  obtain ⟨relay', proxy', friend', lowPower'⟩ := g
  obtain ⟨rfl, h⟩ : relay = relay' ∧ _ := Text.truth_separated rfl h
  obtain ⟨rfl, h⟩ : proxy = proxy' ∧ _ := Text.truth_separated rfl h
  obtain ⟨rfl, h⟩ : friend = friend' ∧ _ := Text.truth_separated rfl h
  obtain rfl : lowPower = lowPower' := Text.truth_injective ((String.append_left_inj _).mp h)
  rfl

theorem element_injective {n m : Nat} {l k : UInt16}
    (h : (element n l).content = (element m k).content) : element n l = element m k := by
  obtain ⟨hnumber, h⟩ := Text.decimal_separated rfl h
  have hlocation := Text.hexadecimal_injective h
  rw [hnumber, UInt16.toNat_inj.mp hlocation]

/-- All labels. -/
def labels : List String :=
  ["company ", "features Features \x7b relay: ", "element ", "  sig model ", "  vendor model "]

theorem label_mem_labels (line : Line) : line.label ∈ labels := by
  cases line <;> simp [label, labels]

/-- No label is the beginning of another one. -/
theorem label_eq_of_begins {x y : String} (hx : x ∈ labels) (hy : y ∈ labels)
    (h : x.toList <+: y.toList) : x = y := by
  have hall : ∀ x ∈ labels, ∀ y ∈ labels, x.toList <+: y.toList → x = y := by decide
  exact hall x hx y hy h

theorem label_prefix_text (line : Line) : line.label.toList <+: line.text.toList := by
  rw [text, String.toList_append]
  exact List.prefix_append _ _

/-- Lines that look the same are of the same kind. -/
theorem label_eq_of_text_eq (h : a.text = b.text) : a.label = b.label := by
  have ha := label_prefix_text a
  rw [h] at ha
  obtain hfirst | hfirst := List.prefix_or_prefix_of_prefix ha (label_prefix_text b)
  · exact label_eq_of_begins (label_mem_labels a) (label_mem_labels b) hfirst
  · exact (label_eq_of_begins (label_mem_labels b) (label_mem_labels a) hfirst).symm

/-- No two lines look the same. -/
theorem text_injective (h : a.text = b.text) : a = b := by
  have hlabel := label_eq_of_text_eq h
  have hcontent : a.content = b.content := by
    rw [text, text, hlabel] at h
    exact (String.append_right_inj b.label).mp h
  cases a <;> cases b <;> simp only [label, String.reduceEq] at hlabel
  case header.header => exact header_injective hcontent
  case features.features => exact features_injective hcontent
  case element.element => exact element_injective hcontent
  case sigModel.sigModel model other =>
    rw [UInt32.toNat_inj.mp (Text.hexadecimal_injective hcontent)]
  case vendorModel.vendorModel model other =>
    rw [UInt32.toNat_inj.mp (Text.hexadecimal_injective hcontent)]

theorem break_not_mem_text (line : Line) : '\n' ∉ line.text.toList := by
  have hdecimal : ∀ n, '\n' ∉ (Text.decimal n).toList := Text.not_mem_decimal (by decide)
  have hhexadecimal : ∀ least n, '\n' ∉ (Text.hexadecimal least n).toList :=
    Text.not_mem_hexadecimal (by decide) (by decide)
  have htruth : ∀ value, '\n' ∉ (Text.truth value).toList := by decide
  cases line <;>
    simp only [text, label, content, headerContent, featuresContent, String.toList_append,
      List.mem_append, not_or, hdecimal, hhexadecimal, htruth, not_false_eq_true, and_true,
      true_and] <;>
    decide

/-! ## All lines -/

/-- The lines about an element, which is given with its number. -/
def ofElement (e : Element) (number : Nat) : List Line :=
  element number e.location :: (e.sigModels.map sigModel ++ e.vendorModels.map vendorModel)

/-- What some lines at the end of a listing tell: models that belong to an element further above,
and elements. -/
structure Told where
  sigModels : List UInt32
  vendorModels : List UInt32
  elements : List Element

/-- What the lines tell together with the line above them. -/
def tell : Line → Told → Told
  | .element _ location, t => ⟨[], [], ⟨location, t.sigModels, t.vendorModels⟩ :: t.elements⟩
  | .sigModel model, t => { t with sigModels := model :: t.sigModels }
  | .vendorModel model, t => { t with vendorModels := model :: t.vendorModels }
  | .header .., t => t
  | .features _, t => t

theorem foldr_tell_sigModels (models : List UInt32) (t : Told) :
    (models.map sigModel).foldr tell t = { t with sigModels := models ++ t.sigModels } := by
  induction models with
  | nil => rfl
  | cons model rest ih =>
    rw [List.map_cons, List.foldr_cons, ih]
    rfl

theorem foldr_tell_vendorModels (models : List UInt32) (t : Told) :
    (models.map vendorModel).foldr tell t =
      { t with vendorModels := models ++ t.vendorModels } := by
  induction models with
  | nil => rfl
  | cons model rest ih =>
    rw [List.map_cons, List.foldr_cons, ih]
    rfl

/-- The lines about an element tell of it, in front of those about the elements behind it. -/
theorem foldr_tell_ofElement (e : Element) (number : Nat) (es : List Element) :
    (ofElement e number).foldr tell ⟨[], [], es⟩ = ⟨[], [], e :: es⟩ := by
  rw [ofElement, List.foldr_cons, List.foldr_append, foldr_tell_vendorModels,
    foldr_tell_sigModels]
  simp [tell]

theorem foldr_tell_elements (es : List Element) (number : Nat) :
    ((es.zipIdx number).flatMap fun (e, n) => ofElement e n).foldr tell ⟨[], [], []⟩ =
      ⟨[], [], es⟩ := by
  induction es generalizing number with
  | nil => rfl
  | cons e rest ih =>
    rw [List.zipIdx_cons, List.flatMap_cons, List.foldr_append, ih, foldr_tell_ofElement]

end Line

/-- The lines of a listing, by what they tell. -/
def lines (c : Composition) : List Line :=
  .header c.company c.product c.version c.replayCache :: .features c.features ::
    c.elements.zipIdx.flatMap fun (e, number) => Line.ofElement e number

/-- The data that some lines tell. -/
def ofLines? : List Line → Option Composition
  | .header company product version replayCache :: .features features :: rest =>
    some ⟨company, product, version, replayCache, features,
      (rest.foldr Line.tell ⟨[], [], []⟩).elements⟩
  | _ => none

/-- The lines of a listing tell the data that are listed. -/
theorem ofLines?_lines (c : Composition) : ofLines? c.lines = some c := by
  simp only [lines, ofLines?, Line.foldr_tell_elements]

theorem featureLine_eq (f : Features) : featureLine f = (Line.features f).text := by
  unfold featureLine
  simp only [Line.text, Line.label, Line.content, Line.featuresContent, String.append_assoc]

theorem elementLines_eq (e : Element) (number : Nat) :
    elementLines e number = (Line.ofElement e number).map Line.text := by
  simp only [elementLines, Line.ofElement, List.map_cons, List.map_append, List.map_map,
    List.cons_append, Line.text, Line.label, Line.content, String.append_assoc]
  rfl

/-- A listing is made of its lines. -/
theorem listing_eq (c : Composition) : c.listing = c.lines.map Line.text := by
  simp only [listing, lines, List.map_cons, List.map_flatMap, elementLines_eq, featureLine_eq,
    Line.text, Line.label, Line.content, Line.headerContent, String.append_assoc]

variable {c d : Composition}

theorem break_not_mem_listing (c : Composition) : ∀ line ∈ c.listing, '\n' ∉ line.toList := by
  intro line hline
  rw [listing_eq] at hline
  obtain ⟨origin, -, rfl⟩ := List.mem_map.mp hline
  exact origin.break_not_mem_text

/-- Different data have different listings. -/
theorem listing_injective (h : c.listing = d.listing) : c = d := by
  rw [listing_eq, listing_eq] at h
  have hlines : c.lines = d.lines := (List.map_inj_right fun _ _ => Line.text_injective).mp h
  rw [← Option.some_inj, ← ofLines?_lines c, hlines, ofLines?_lines]

theorem printed_listing_injective (h : Text.printed c.listing = Text.printed d.listing) : c = d :=
  listing_injective (Text.printed_injective (break_not_mem_listing c) (break_not_mem_listing d) h)

end Composition

end MeshFoundation
