import SearchClient.Unicode.Table

/-!
# Composed characters

A letter with marks can be written in several ways.  The composed form takes
all characters apart, brings the marks of each letter into the order of their
classes, and puts together again what can be put together.
-/

namespace SearchClient.Unicode

def markClasses : List Span := readSpans
  "BDouIwaaIyadImaaIyaaIiaeImabHuadImabHuakImaebadImajIwacImacIwabImbcIwadImaaIwaaIyabImaaIwaaIzabJ
   aaaIzabJaaaIzamIwKpeIwKfaImadIwaaImacIwaaIoaaImafIwafImabIwaaImabIwaaIoaaIuaaIwaakaalaamaanaaoaa
   paaqaaraasabtaauaavaawbaxbayaazbaIwaaImbasCuhIwaaBeaaBfaaBgBwaBbaaBcaaBdaaBeaaBfaaBgaaBhaaBiabIw
   abImaeIwaaImabIwaaImqaBjDxgIwcdIwaaImaaIwcbIwbaImabIwaaImBjaBkBeaIwaaImabIwaaImabIwacImaaIwabIma
   aIwaaImacIwaaImaaIwaaImaaIwaaImaaIwaaImabIwGegIwaaImaaIwjaImydIwbiIwbcIwbeIwBrcImChbIwacImadIwBq
   eIwaeImanIwbaImabIwaaImabIwaaImacIwacImaaBbaaBcaaBdacIwaaImabIwabImaeIwCiahqajdaIwaaImabIwDzahqa
   jBwaIwCjahqajEgahqajEgahqajExajEgahqajhaDgaaDnDxahqajEfbjqajEuajEfbDzaajndEdEebEoaajndEsCybImBba
   ImbaImbaIiCdaEzaaFabaFcfdFacaFabbIwaajbbIwCkaImEiahbbjDeaImBBrcIwBKmbjBeajGbajkaIwHvaIuFnaIoaaIw
   aaImIlaIwaaImCtajuhIwcaImBweIwafImabIwaaImbbImabIwabImaeIwaaImarIwaaImcfIwaaImadIwaaJaCuahpajBma
   IwaaImagIwCcbjCgahlbjCpahFwcIwbabaeImabIwadImaaIwbgbeaImgaIwdbIwHqbIwaaImagIwaaImabIwaaJaaaIgaaI
   maaHuaBkIwaaIyabIuaaImaaIkaaIwaaIzaaImaaIwaaImBBsbIwabbadIwacbabIweaIwdbbaaIwaaImaaIwabbadImaaIw
   EOccIwFlajDsBfIwViaIkaaIuaaIyaaIoabIqEbbiBSQeaIwejIwBgbIwDcbIwKqajBlajFvajBbrIwCfcImBlajDrahmajJ
   faIwbbIwaaImcbIwfbIwbaIwCaajJmajBDZsaBaBDpgIwagImabIwBLlaImIsaImFteIwCMsaImbaIwBoaIwaabaaImeajGj
   aIwaaImWbdIwCneIwMfbIwCzbImbcImCsbImacIwaaImaaIwadImBxaIwaaImaaIwaaImHkajBpajoajCfajaahCrcIwBwbj
   CkahCyajjahEcajaahGwahaajDcbhqajyoIwDlcjEjajdahxaIwDvajaahJrajaahEwajEoajaahElajKjajaahJybjeahGa
   ajDfajsajDdajQfajJyahbbjDdajQjbjYZcajDSaebChgIwBUnbgBDAyabHWobIiacbdaIsaeIiihImceIwabImBedIwFscI
   wFFfFnIwGegIwOlaIwCjdIwTobIyaaImaaIwJuaIwaaImJjaIwcaIwhbIwfaIwSggImEffIwaah"

def combining : List Span := readSpans
  "BDoEhbKpgbKdBsbbabbbbbbbbabCukbBwubqabDxgbcfbcbbbdbBjabBeBabDnkbCgibjabydbbibbcbbebBrcbChibBqCfb
   CccbbrbbgbkbbBdcbCeabbpbjabkbbBafbCevbBebbdablcbCeabbpbubbwjbCeabbzbkbbBeabChpbjabBoebCdabbyblbb
   BdcbCeabbyblbbpqbCdbbbpbjabkbbBdcbCsvbsbbCjabcgbmhbDuabciblgbCvbbBbabbabbabebbBxtbbbbfBvbjabDwtb
   xdbecbbcbcgbddbnlbbabkdbBBbcbBKkdbBccbBdbbBebbCoBdbjabGlbbBiabEoBbbIlebCfBqbBwDgbBvqbBmibmcbBemb
   CenbBwtbFwcbbubeabgabccbHqClbBBsBgbEOccbFlabDsBfbVifbEbbbBSQedbbjbBgbbDcbbKmabdabeabxebeabDfbbBy
   rbBarbnabBmhbzmbBsdbBvnbBkabCpnbmabibbBtcbByabbcbcbbfbbbabBpebfbbJchbbbbBDZsabBDppbBLlabIsabFteb
   CMgobBohbGjbbWbdbCnebMfbbCzfbCskbBxdbEscbCbobBpabcbbkdbBtkbhabCjcbBknbqbbBsabmcbBwnbidbbbbDolbga
   bcabGblbvdbCdbbbpbjabksbCpybbabobbDerbxabDdtbJbrbBbbbDeqbEcmbDxobJwobJlobbabbbbFlpbdabBcjbBogbbd
   biabjkbBupbHqhbHrqbDeBkbEsubbabConbNjdbjbbbabBwobxabHXtabgobQYyrbDSaebChgbBOiabbCnbDdnbBDAxbbGYz
   CsbUwebdvbcgbBedbFscbCYdCcbeBxbiaboabwubCAiFnbGegbOlabCjdbTodbJubbJjabcabhbbfabSggbEfgb"

/-- Composed characters in order, each as the distance to it and its two parts. -/
def compositions : Nat → List Nat → List (Nat × Nat × Nat)
  | start, gap :: base :: mark :: rest =>
      (start + gap, base, mark) :: compositions (start + gap) rest
  | _, _ => []

def composed : List (Nat × Nat × Nat) := compositions 0 (numbers
  "IqDtBDobDtBDpbDtBDqbDtBDrbDtBDwbDtBDycDvBFbbDxBDobDxBDpbDxBDqbDxBDwbEbBDobEbBDpbEbBDqbEbBDwcEgBD
   rbEhBDobEhBDpbEhBDqbEhBDrbEhBDwdEnBDobEnBDpbEnBDqbEnBDwbErBDpcErBDwcDtBDscDtBDucDtBFccDvBDpcDvBD
   qcDvBDvcDvBEacDwBEaeDxBDscDxBDucDxBDvcDxBFccDxBEacDzBDqcDzBDucDzBDvcDzBFbcEaBDqeEbBDrcEbBDscEbBD
   ucEbBFcgEcBDqcEdBFbdEeBDpcEeBFbcEeBEagEgBDpcEgBFbcEgBEafEhBDscEhBDucEhBDzeEkBDpcEkBFbcEkBEacElBD
   pcElBDqcElBFbcElBEacEmBFbcEmBEaeEnBDrcEnBDscEnBDucEnBDycEnBDzcEnBFccEpBDqcErBDqdEsBDpcEsBDvcEsBE
   aBjEhBEppEnBEpBeDtBEacEbBEacEhBEacEnBEacJsBDscJsBDpcJsBEacJsBDodIuBDscVfBDscIwBDseDzBEacEdBEacEh
   BFccSxBDscZiBEabEcBEafDzBDpeEgBDocIvBDpcIwBDpcJoBDpcDtBEdcDtBEfcDxBEdcDxBEfcEbBEdcEbBEfcEhBEdcEh
   BEfcEkBEdcEkBEfcEnBEdcEnBEfcElBFacEmBFaeEaBEaiDtBDvcDxBFbcJmBDscJlBDscEhBDvcVnBDscErBDsNlBLiBDpB
   cBKjBDpbBKnBDpbBKpBDpbBKrBDpbBLjBDpBaBKrBDwbBLdBDwbBKxBDpbBLdBDpbBLhBDpEdBPoBDuxBPlBDobBPlBDwcBP
   jBDpeBQsBDwfBPqBDpbBPoBDobBPzBDuzBRxBEdCxBPmBDupBPgBDucBPgBDweBPlBDueBVtBDwcBPmBDwcBPnBDweBPoBDs
   cBPoBDwcBPuBDweBWjBDwcBQjBDwcBPzBDscBPzBDwcBPzBDzcBQdBDweBQhBDwLlCIpCKhbCIpCKibCJwCKibCIpCKjbCJy
   CKiFyCPhCKicCOnCKirCPeCKiXaDMeDMyiDMmDMydDMpDMyFvDShDRybDShDSxOqEHbEHqdEHbEGsbEHbEHrCuEJyEMpCcEL
   yELqbELzELqbELyEMpEuEQwERmEqEVnEWjhEVuEWjbEVuEWkcEVuEVqbEVyEWjExFAsFAkbFAtFAkbFAsFBjFmFGjFFucFGj
   FFzbFGmFFubFGjFGpWmGCzGDiEDcKGbKHxcKGdKHxcKGfKHxcKGhKHxcKGjKHxeKGnKHxBpKIcKHxcKIeKHxdKIgKHxbKIhK
   HxcKIkKHxBBaDtBEzcDuBDvcDuBExcDuBFlcIxBDpcDwBDvcDwBExcDwBFlcDwBFbcDwBFhcKpBDocKpBDpcDxBFhcDxBFkc
   VhBDucDyBDvcDzBDscEaBDvcEaBExcEaBDwcEaBFbcEaBFicEbBFkcJfBDpcEdBDpcEdBExcEdBFlcEeBExcLLnBDscEeBFl
   cEeBFhcEfBDpcEfBDvcEfBExcEgBDvcEgBExcEgBFlcEgBFhcJlBDpcJlBDwcMvBDocMvBDpcEiBDpcEiBDvcEkBDvcEkBEx
   cLMxBDscEkBFlcElBDvcElBExcNjBDvcNpBDvcLNfBDvcEmBDvcEmBExcEmBFlcEmBFhcEnBEycEnBFkcEnBFhcNxBDpcNzB
   DwcEoBDrcEoBExcEpBDocEpBDpcEpBDwcEpBDvcEpBExcEqBDvcEqBDwcErBDvcEsBDqcEsBExcEsBFlbEaBFlbEmBDwbEpB
   DybErBDyiDtBExcDtBDxcIsBDpcIsBDocIsBDxcIsBDrcLPpBDqcJzBDpcJzBDocJzBDxcJzBDrcLPpBDucDxBExcDxBDxcD
   xBDrcJaBDpcJaBDocJaBDxcJaBDrcLQnBDqcEbBDxcEbBExcEhBExcEhBDxcJkBDpcJkBDocJkBDxcJkBDrcLRhBDqcQbBDp
   cQbBDocQbBDxcQbBDrcQbBExcEnBExcEnBDxcQqBDpcQqBDocQqBDxcQqBDrcQqBExcErBDocErBExcErBDxcErBDrhBKjBE
   hbBKjBEibLTgBDobLThBDobLTgBDpbLThBDpbLTgBGcbLThBGcjBKnBEhbBKnBEibLTwBDobLTxBDobLTwBDpbLTxBDplBKp
   BEhbBKpBEibLUmBDobLUnBDobLUmBDpbLUnBDpbLUmBGcbLUnBGcjBKrBEhbBKrBEibLVcBDobLVdBDobLVcBDpbLVdBDpbL
   VcBGcbLVdBGcjBKxBEhbBKxBEibLVsBDobLVtBDobLVsBDpbLVtBDplBLdBEhbBLdBEibLWiBDobLWjBDobLWiBDpbLWjBDp
   bLWiBGcbLWjBGcjBLhBEhbBLhBEibLWyBDobLWzBDobLWyBDpbLWzBDpbLWyBGcbLWzBGcjBKjBDocBKnBDocBKpBDocBKrB
   DocBKxBDocBLdBDocBLhBDoCaBKjBDubBKjBDsfBKjBGcqBKpBGckBKrBDubBKrBDsbBLiBDoeBKrBGcbBLiBGcjBLdBDubB
   LdBDsbBLjBDocBKzBEhbBKzBEibBLdBGcbBLjBGcpBLhBGcQeMSmBFsbMSoBFstMSqBFsBfMUyBFsbMVcBFsbMVaBFsCbMWx
   BFsfMXcBFsdMXfBFsyMYdBFscMYfBFsBbMZcBFsdMZjBFsdMZlBFscMZoBFsxCjBFscNAnBFslMZtBFsbCiBFsbCkBFsbNAq
   BFsbNArBFsdNBeBFsbNBfBFsdNBiBFsbNBjBFshNBmBFsbNBnBFsdNBuBFsbNBvBFsdNByBFsbNBzBFsBjNDaBFsbNDgBFsb
   NDhBFsbNDjBFsBxNBoBFsbNBpBFsbNCjBFsbNCkBFshNDqBFsbNDrBFsbNDsBFsbNDtBFsFBrSHnSKncSHpSKncSHrSKncSH
   tSKncSHvSKncSHxSKncSHzSKncSIbSKncSIdSKncSIfSKncSIhSKncSIjSKndSImSKncSIoSKncSIqSKnhSIxSKnbSIxSKoc
   SJaSKnbSJaSKocSJdSKnbSJdSKocSJgSKnbSJgSKocSJjSKnbSJjSKoxSHiSKnkSKrSKnoSLfSKncSLhSKncSLjSKncSLlSK
   ncSLnSKncSLpSKncSLrSKncSLtSKncSLvSKncSLxSKncSLzSKncSMbSKndSMeSKncSMgSKncSMiSKnhSMpSKnbSMpSKocSMs
   SKnbSMsSKocSMvSKnbSMvSKocSMySKnbSMySKocSNbSKnbSNbSKoxSLaSKndSNvSKnbSNwSKnbSNxSKnbSNySKneSOjSKnDC
   PfDVDyBDvBbDVEgBDvEBmDZGbDZHicDZGdDZHipDZGnDZHiFbDZLxDZLnbDZLyDZLnUuEAGlEAGcbEAGlEAHbCdEAIsEALlc
   EAIuEAKxjEAJbEALedEAJgEALlCaEALeEALecEALeEAKubEALeEALlJjEAUrEAUsbEAUrEAUicEAUrEAUvJsEBEmEBEdbEBE
   nEBEdBIjECMvECMqBBGbFDSwFDSwbFDSwFDThbFDSwFDSxbFDThFDSxbFDSwFDSybFDSzFDSxbFDTaFDSxbFDSzFDSyEQqFI
   JvFIJvbFIJrFIJvbFIJxFIJv")

def markClass (c : Char) : Nat := classOf markClasses c

def isCombining (c : Char) : Bool := classOf combining c ≠ 0

/-! ## Syllables

The syllables of Korean stand in the order of their consonant, their vowel and
the consonant that may follow. -/

def firstSyllable : Nat := 0xAC00

def isSyllable (n : Nat) : Bool := firstSyllable ≤ n && n < firstSyllable + 19 * 21 * 28

/-- The two parts of a syllable: without its last consonant, and that; or its other letters. -/
def syllableParts (n : Nat) : Nat × Nat :=
  let place := n - firstSyllable
  if place % 28 = 0 then (0x1100 + place / 28 / 21, 0x1161 + place / 28 % 21)
  else (n - place % 28, 0x11A7 + place % 28)

def syllable? (a b : Nat) : Option Nat :=
  if 0x1100 ≤ a ∧ a < 0x1100 + 19 ∧ 0x1161 ≤ b ∧ b < 0x1161 + 21 then
    some (firstSyllable + ((a - 0x1100) * 21 + (b - 0x1161)) * 28)
  else if isSyllable a ∧ (a - firstSyllable) % 28 = 0 ∧ 0x11A7 < b ∧ b < 0x11A7 + 28 then
    some (a + (b - 0x11A7))
  else none

def parts? (c : Char) : Option (Nat × Nat) :=
  if isSyllable c.toNat then some (syllableParts c.toNat) else composed.lookup c.toNat

def split (cs : List Char) : List Char :=
  cs.flatMap fun c =>
    match parts? c with
    | some (a, b) => [Char.ofNat a, Char.ofNat b]
    | none => [c]

/-- Brings a mark to its place behind the marks before it, which are given with the last one first. -/
def settle (c : Char) : List Char → List Char
  | [] => [c]
  | d :: rest =>
      if 0 < markClass c ∧ markClass c < markClass d then d :: settle c rest else c :: d :: rest

/-- All characters apart, their marks in order; no character has parts of parts of parts. -/
def decompose (cs : List Char) : List Char :=
  ((split (split cs)).foldl (fun before c => settle c before) []).reverse

def fuse? (a b : Char) : Option Char :=
  match syllable? a.toNat b.toNat with
  | some n => some (Char.ofNat n)
  | none =>
      (composed.find? fun (_, base, mark) => base = a.toNat && mark = b.toNat).map
        fun (n, _) => Char.ofNat n

/--
Puts a character together with what follows it.  The marks that do not fuse
stay behind it, and a mark fuses only past marks of lower classes.
-/
def compose (base : Char) (marks : List Char) : List Char → List Char
  | [] => base :: marks.reverse
  | c :: rest =>
      let isFree := marks.head?.all fun m => markClass m < markClass c
      match if isFree then fuse? base c else none with
      | some fused => compose fused marks rest
      | none =>
          if markClass c = 0 then base :: (marks.reverse ++ compose c [] rest)
          else compose base (c :: marks) rest

def composedForm (cs : List Char) : List Char :=
  match decompose cs with
  | [] => []
  | c :: rest => compose c [] rest

end SearchClient.Unicode
