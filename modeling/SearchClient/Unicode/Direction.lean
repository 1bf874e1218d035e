import SearchClient.Unicode.Table

/-!
# Directions of writing

A label is written in one direction, from its first letter on, and ends in a
letter or a digit.  This matters only where some letter goes from right to left.
-/

namespace SearchClient.Unicode

inductive Direction where
  | leftToRight
  | rightToLeft
  | arabicDigit
  | digit
  | neutral
  | mark
  | other
  deriving DecidableEq, Repr

def directions : List Span := readSpans
  "aieaeganeaegaoeajdaBmeBaDoeBfaeRhbehnecBbebqeaEhffaeEyaeFkgfJwfebBsfaabaafaababfaababfaabaafiBkb
   rbeaababeaabaaeaababeakfaBvbaufajcaaeabcacbaafaDwbagfbaeaffabbabfaaeadfabbajdawbaafaBdbaBafcDkba
   kfaCfbaifabbadeaabcafaxbadfaabaifaabacfaabaefcBobacfcBxbhifaBpbaCefCdafbafehfeafdgfkbfBdafCgafed
   fiafubfobehaecefCfafeqfBebfdaflbfCfafehfeafubfnaeihfCgafcafbdfijflbfBeafCjafmafBlhefafdafCdafbcf
   fqflbfugecafCgafpbfubfBcbfCfbfedfiafubfBdafCuafhefDmafcgfeaehhfDuafciflgfCvbfBbafbafbafadeBznfbe
   fbbffBvfjafDydfbffbbfcbfzbfecfqdfnafcbfgafpafBBbcfBwjeDyaeZqbeEncfBdbfBebfBebfCpgfiafckfhaebafsB
   aeEsbfBiafEocfebfjafgcfefeFwBhexbfcafCgafbifbafchfgmfBwDffBwafbefbaffafBoifmbfBgdfcbfbcfCeafbbfd
   afbcfCghfcbfFwcfbmfbgfeafgafdbfHqClfUeGzeoBgftCveCiQleCrzebBEjebNaeJwBDneIvfeecfhgeExafDsBffaTwe
   dyejdfcaegaefceDlbffaeDmaeHoBleKOgCleBGUiCceMoceDrdfaaeajfabeBebfDcbfoBheDyaeErafdafeafzbfbdeaaf
   lbeCgdeCybfBarfnafBmhfzkfBucfBwafcdfcbfBnafCpffcbfcbfmafiafBvafBzafbcfcbffbfbafBqbfiafElbeErafca
   feafBDZsafFrqbaWaeBgpfvbeBsabZdaeCkCyedqeDoafIsafaBadEsefBSnKxbdaeaIqbaofaBlbchfaGibabfeCwbdgeaS
   pbadfijcgpbzefaxbibeIaBecbBpbbbfaBjbaheBhffaCrbakfaBwbadfaEibkafCcofltekafcbfkcfBxdfcbfhafCjcfBk
   efbhfCkafmbfCaifkdfcafDrcfcafbbfgafcafGbafdhfvbfCfbfdafBlofCsffnafbafbafobfDhhfccfbafxafDgffbafe
   bfbbfJedfgbfbbfBbbfDhhfcafbbfBfmeCkafbafcffbafDxcfcdfbefJzifbbfJwbfbafeafFohfeafBgffcbfBoffcdfia
   fjffccfBumfbbfHqafbcfbafHtnfDgvfcgfbbfbbfEsufbafCubfdafbafNjbflbfCaeffafbafxafEsBceHRyafgofQYylf
   dcfDSaefChgfBOiafCldfDbaebafBDBkbfFVlBCyepCsfUycfrhfcgfBedfChDkeacfaaeHeDieCNpCcfeBxfiafoafwufCA
   iFnfGegfOlafCjdfpaeSydfJubfJjafcafhbffafKgHzbagfCxBhbagfaBMwbQsWdeCjceCjaeGwDQoe"

def direction (c : Char) : Direction :=
  match classOf directions c with
  | 0 => .leftToRight
  | 1 => .rightToLeft
  | 2 => .arabicDigit
  | 3 => .digit
  | 4 => .neutral
  | 5 => .mark
  | _ => .other

def hasRightToLeft (cs : List Char) : Bool :=
  cs.any fun c => [.rightToLeft, .arabicDigit].contains (direction c)

def lastOf (ds : List Direction) : Option Direction := (ds.reverse.dropWhile (· = .mark)).head?

/-- Whether a label keeps to one direction; digits of one kind only may stand from right to left. -/
def isDirected (label : List Char) : Bool :=
  let ds := label.map direction
  match ds with
  | [] => true
  | .leftToRight :: _ =>
      ds.all [.leftToRight, .digit, .neutral, .mark].contains &&
        (lastOf ds).all [.leftToRight, .digit].contains
  | .rightToLeft :: _ =>
      ds.all [.rightToLeft, .arabicDigit, .digit, .neutral, .mark].contains &&
        (lastOf ds).all [.rightToLeft, .arabicDigit, .digit].contains &&
        !(ds.contains .digit && ds.contains .arabicDigit)
  | _ => false

end SearchClient.Unicode
