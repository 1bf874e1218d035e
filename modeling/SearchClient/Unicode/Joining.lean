import SearchClient.Unicode.Composition

/-!
# Joiners

Two invisible characters say whether letters are joined in writing.  They may
stand only where they make a difference: behind a sign that takes the vowel
away, and the one that keeps letters apart also between letters that join.
-/

namespace SearchClient.Unicode

def joinings : List Span := readSpans
  "BDoEheKpgeKdBsebaebbebbebaeCukefadbdcaadaacaadaacaedadcamdbgdaacabdaueobdaaeaccfodarcaBldaacabda
   icaadaacaadaacabdabcbacagecfecbebdeabckcdcadqacaaeacdaecaddaacaidaacaadaacaadaacabdaacaBaecacakd
   accaodabcaddaacaadabcacdabcafdBmkezBgdaiejaeydebiebcebeesacaedabcaadaacajdaacaadaccaceeadbddbaca
   adazcdadcedaacaadhieajdaccbacabdabcafdaacaodbCeeCdaebaeeheeaedgekbeBdaeCgaeedeiaeubeBaeeCfaeeqeB
   ebedaelbeCfaeeheeaeubewheCgaecaebdeijelbeBeaeCjaemaeByaedaeCdaebcefqelbeBdaeCgaecaegaefbeubeBcbe
   CfbeedeiaeubeBdaeCuaeheeDmaecgemheDuaecielgeCvbeBbaebaebaeCdnebeebbefBvejaeDydebfebbecbezbeeceqd
   enaecbegaepaeBBbceBKkceBdbeBebeBebeCpgeiaeckejaeBpadyDkdmbeaBhdaaeaadEnceebejaegceIlbecaeCgaebie
   baechegmeBwDfeBwaebeebaefaeBoiembeBgdecbebceCeaebbedaebceCghecbeFwcebmebgeeaegaedbeHqCleBBsBgeEO
   cceFlaeDsBfeVideEdbeBSQedebjeBgbeDcbeKmaedaeeaezbefaetBxdaabDdbeBarenaeBmhezkeBuceBwaecdecbeBnae
   CpfecbecbemaeiaeBvaeBzaebcecbefbebaeBqbeiaeJeaecaeeaeBDZsaeBDppeBLlaeIsaeFteeCMgoeBoheEyedaacbac
   bbccabaecaddaabaedaacacdaaccacabeeddaacFoadaacaadaccacdaacabdaacaadabcaadaacxdcabdMzabaBgdaacaad
   adeCneeMfbevacabdbbdByfeBwcdaacaqdbkeacdaacBbddabcaldadeBqadbbdaccbadabcabdaacabdbadabcaadeacaad
   aabCbaeCcoeBpaecbekceBxdecbehaeCjceBkeebheCkaembeCaiekdecaeDrcecaebbegaecaeGbaedhevbeCfbedaeBloe
   CsfenaebaebaeobeDhheccebaexaeDgfebaeebebbeJedegbebbeBbbeDhhecaebbeEcaebaecfebaeDxaebaecdebeeJzie
   bbeJwbebaeeaeFoheeaeBgjeBofecdeiaejfecceBumebbeHqaebcebaeHtnebaeDevecgebbebbeEsuebaeCubedaebaeNj
   belbeCaeefaebaexaeHXtaegoeQYyledceDSaeeChgeBOiaeCldeDdaeBDBkbeGYzCseUycerhecgeBedeFsceCYdCceeBxe
   iaeoaewueCAiFneGegeOlaeCjdeTodeJubeJjaecaehbefaeSggeCxBhdahe"

def joinsNext (c : Char) : Bool := [1, 3].contains (classOf joinings c)

def joinsPrevious (c : Char) : Bool := [2, 3].contains (classOf joinings c)

def isPassedOver (c : Char) : Bool := classOf joinings c = 4

def reaches (kind : Char → Bool) (cs : List Char) : Bool :=
  (cs.dropWhile isPassedOver).head?.any kind

def isVowelless (before : List Char) : Bool := before.head?.any fun c => markClass c = 9

/-- Whether all joiners stand where they may; what is before has the last character first. -/
def hasJoinersInPlace (before : List Char) : List Char → Bool
  | [] => true
  | c :: rest =>
      (if c = '\u200c' then
        isVowelless before || (reaches joinsNext before && reaches joinsPrevious rest)
      else if c = '\u200d' then isVowelless before
      else true) &&
        hasJoinersInPlace (c :: before) rest

end SearchClient.Unicode
