import ChangeFeed.Text.Combining

/-!
# Composed characters

A letter with marks can be written as one character or as several. `Text.composed` brings both to
the same form: characters are taken apart, the marks of each letter are put into the order of their
classes, and what belongs together is joined again.

The table holds, for each second character, the first characters that it joins, each before the
character that results. Syllables of Hangul follow from their code points. Characters that always
stand for others, such as the Kelvin sign, are not taken apart here.
-/

namespace ChangeFeed.Text

/-- By second character: first characters, each with the character that the two are. -/
def compositions : List (Nat × String) := [
  (0x300, "aàeèiìnǹoòuùwẁyỳâầêềôồüǜăằēḕōṑơờưừαὰεὲηὴιὶοὸυὺωὼϊῒϋῢеѐиѝἀἂἁἃἐἒἑἓἠἢἡἣἰἲ"),
  (0x300, "ἱἳὀὂὁὃὐὒὑὓὠὢὡὣ"),
  (0x301, "aácćeégǵiíkḱlĺmḿnńoópṕrŕsśuúwẃyýzźâấåǻæǽçḉêếïḯôốõṍøǿüǘăắēḗōṓũṹơớưứαάεέ"),
  (0x301, "ηήιίοόυύωώϊΐϋΰгѓкќἀἄἁἅἐἔἑἕἠἤἡἥἰἴἱἵὀὄὁὅὐὔὑὕὠὤὡὥ"),
  (0x302, "aâcĉeêgĝhĥiîjĵoôsŝuûwŵyŷzẑạậẹệọộ"), (0x303, "aãeẽiĩnñoõuũvṽyỹâẫêễôỗăẵơỡưữ"),
  (0x304, "aāeēgḡiīoōuūyȳäǟæǣõȭöȫüǖǫǭȧǡȯȱαᾱιῑυῡиӣуӯḷḹṛṝ"),
  (0x306, "aăeĕgğiĭoŏuŭȩḝαᾰιῐυῠаӑеӗжӂийуўạặ"),
  (0x307, "aȧbḃcċdḋeėfḟgġhḣmṁnṅoȯpṗrṙsṡtṫwẇxẋyẏzżśṥšṧṣṩ𐗒𐗉𐗚𐗤"),
  (0x308, "aäeëhḧiïoötẗuüwẅxẍyÿõṏūṻιϊυϋаӓеёжӝзӟиӥоӧуӱчӵыӹэӭіїәӛөӫ"),
  (0x309, "aảeẻiỉoỏuủyỷâẩêểôổăẳơởưử"), (0x30a, "aåuůwẘyẙ"), (0x30b, "oőuűуӳ"),
  (0x30c, "aǎcčdďeěgǧhȟiǐjǰkǩlľnňoǒrřsštťuǔzžüǚʒǯ"), (0x30f, "aȁeȅiȉoȍrȑuȕѵѷ"),
  (0x311, "aȃeȇiȋoȏrȓuȗ"), (0x313, "αἀεἐηἠιἰοὀρῤυὐωὠ"), (0x314, "αἁεἑηἡιἱοὁρῥυὑωὡ"),
  (0x31b, "oơuư"), (0x323, "aạbḅdḍeẹhḥiịkḳlḷmṃnṇoọrṛsṣtṭuụvṿwẉyỵzẓơợưự"), (0x324, "uṳ"),
  (0x325, "aḁ"), (0x326, "sștț"), (0x327, "cçdḑeȩgģhḩkķlļnņrŗsştţ"), (0x328, "aąeęiįoǫuų"),
  (0x32d, "dḓeḙlḽnṋtṱuṷ"), (0x32e, "hḫ"), (0x330, "eḛiḭuṵ"), (0x331, "bḇdḏhẖkḵlḻnṉrṟtṯzẕ"),
  (0x338, "<≮=≠>≯←↚→↛↔↮⇐⇍⇒⇏⇔⇎∃∄∈∉∋∌∣∤∥∦∼≁≃≄≅≇≈≉≍≭≡≢≤≰≥≱≲≴≳≵≶≸≷≹≺⊀≻⊁≼⋠≽⋡⊂⊄⊃⊅⊆⊈⊇⊉⊑⋢"),
  (0x338, "⊒⋣⊢⊬⊨⊭⊩⊮⊫⊯⊲⋪⊳⋫⊴⋬⊵⋭"), (0x342, "αᾶηῆιῖυῦωῶϊῗϋῧἀἆἁἇἠἦἡἧἰἶἱἷὐὖὑὗὠὦὡὧ"), (0x653, "اآ"),
  (0x654, "اأوؤيئہۂےۓەۀ"), (0x655, "اإ"), (0x93c, "नऩरऱळऴ"), (0x9be, "েো"), (0x9d7, "েৌ"),
  (0xb3e, "େୋ"), (0xb56, "େୈ"), (0xb57, "େୌ"), (0xbbe, "ெொேோ"), (0xbd7, "ஒஔெௌ"), (0xc56, "ెై"),
  (0xcc2, "ೆೊ"), (0xcd5, "ಿೀೆೇೊೋ"), (0xcd6, "ೆೈ"), (0xd3e, "െൊേോ"), (0xd57, "െൌ"),
  (0xdca, "ෙේොෝ"), (0xdcf, "ෙො"), (0xddf, "ෙෞ"), (0x102e, "ဥဦ"),
  (0x1b35, "ᬅᬆᬇᬈᬉᬊᬋᬌᬍᬎᬑᬒᬺᬻᬼᬽᬾᭀᬿᭁᭂᭃ"),
  (0x3099, "うゔかがきぎくぐけげこごさざしじすずせぜそぞただちぢつづてでとどはばひびふぶへべほぼゝゞウヴカガキギクグケゲコゴサザシジスズセゼソゾタダチヂ"),
  (0x3099, "ツヅテデトドハバヒビフブヘベホボワヷヰヸヱヹヲヺヽヾ"), (0x309a, "はぱひぴふぷへぺほぽハパヒピフプヘペホポ"), (0x110ba, "𑂙𑂚𑂛𑂜𑂥𑂫"),
  (0x11127, "𑄱𑄮𑄲𑄯"), (0x1133e, "𑍇𑍋"), (0x11357, "𑍇𑍌"), (0x113b8, "𑏅𑎸"), (0x113bb, "𑎄𑎅"),
  (0x113c2, "𑎋𑎎𑏅𑏂"), (0x113c9, "𑎂𑎃𑎐𑎑𑏅𑏉"), (0x114b0, "𑒹𑒼"), (0x114ba, "𑒹𑒻"), (0x114bd, "𑒹𑒾"),
  (0x115af, "𑖸𑖺𑖹𑖻"), (0x11930, "𑤵𑤸"), (0x1611e, "𖄡𖄞"), (0x1611f, "𖄦𖄡𖄦𖄢𖄧𖄩𖄤"), (0x16120, "𖄨𖄡𖄨"),
  (0x16129, "𖄡𖄩"), (0x16d67, "𖵣𖵪𖵨𖵩𖵪")]

/-- The characters of a text two by two. -/
def twoByTwo : List Char → List (Char × Char)
  | a :: b :: rest => (a, b) :: twoByTwo rest
  | _ => []

/-! ## Syllables of Hangul -/

/-- The two parts of a syllable: its last consonant is taken off, or else its vowel. -/
def splitSyllable? (c : Char) : Option (Char × Char) :=
  if 0xac00 ≤ c.toNat ∧ c.toNat ≤ 0xd7a3 then
    let i := c.toNat - 0xac00
    if i % 28 = 0 then
      some (Char.ofNat (0x1100 + i / 588), Char.ofNat (0x1161 + i % 588 / 28))
    else some (Char.ofNat (c.toNat - i % 28), Char.ofNat (0x11a7 + i % 28))
  else none

/-- The syllable of a consonant and a vowel, or of such a syllable and a last consonant. -/
def joinSyllable? (a b : Char) : Option Char :=
  if 0x1100 ≤ a.toNat ∧ a.toNat ≤ 0x1112 ∧ 0x1161 ≤ b.toNat ∧ b.toNat ≤ 0x1175 then
    some (Char.ofNat (0xac00 + (a.toNat - 0x1100) * 588 + (b.toNat - 0x1161) * 28))
  else if 0xac00 ≤ a.toNat ∧ a.toNat ≤ 0xd7a3 ∧ (a.toNat - 0xac00) % 28 = 0 ∧
      0x11a8 ≤ b.toNat ∧ b.toNat ≤ 0x11c2 then
    some (Char.ofNat (a.toNat + (b.toNat - 0x11a7)))
  else none

/-! ## Taking apart and joining -/

/-- The two parts of a character. -/
def split? (c : Char) : Option (Char × Char) :=
  (splitSyllable? c).or (compositions.findSome? fun (second, firsts) =>
    ((twoByTwo firsts.toList).find? (·.2 = c)).map fun (first, _) => (first, Char.ofNat second))

/-- The character that two characters are. -/
def join? (a b : Char) : Option Char :=
  (joinSyllable? a b).or (compositions.findSome? fun (second, firsts) =>
    if second = b.toNat then (twoByTwo firsts.toList).lookup a else none)

/-- Takes a character apart, at most the given number of times in a row. -/
def apart : Nat → Char → List Char
  | 0, c => [c]
  | n + 1, c =>
    match split? c with
    | some (first, second) => apart n first ++ [second]
    | none => [c]

/-- No character has more parts after its first one. -/
def mostParts : Nat := 4

/-- Puts a mark before the marks of greater classes. -/
def insertMark (c : Char) : List Char → List Char
  | [] => [c]
  | d :: ds =>
    if combiningClass d ≤ combiningClass c then d :: insertMark c ds else c :: d :: ds

/-- Puts the marks after each letter into the order of their classes. -/
def ordered (cs : List Char) : List Char :=
  let (done, marks) := cs.foldl (fun (done, marks) c =>
    if combiningClass c = 0 then (done ++ marks ++ [c], [])
    else (done, insertMark c marks)) ([], [])
  done ++ marks

/-- What has been joined so far, each part from back to front. -/
structure Joined where
  /-- What is final. -/
  done : List Char
  /-- The last character that may still be joined to others. -/
  open? : Option Char
  /-- The marks that follow it. -/
  marks : List Char

def Joined.text (j : Joined) : List Char := (j.marks ++ j.open?.toList ++ j.done).reverse

/-- Goes on with a character. It joins the open one unless a mark of its class or of a greater one
stands between them. -/
def Joined.push (j : Joined) (c : Char) : Joined :=
  let isBlocked : Bool := match j.marks with
    | m :: _ => combiningClass c ≤ combiningClass m
    | [] => false
  match if isBlocked then none else j.open?.bind (join? · c) with
  | some whole => { j with open? := some whole }
  | none =>
    if combiningClass c = 0 then ⟨j.marks ++ j.open?.toList ++ j.done, some c, []⟩
    else { j with marks := c :: j.marks }

/-- The composed form of a text. -/
def composed (cs : List Char) : List Char :=
  ((ordered (cs.flatMap (apart mostParts))).foldl Joined.push ⟨[], none, []⟩).text

end ChangeFeed.Text
