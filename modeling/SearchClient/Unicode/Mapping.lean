import SearchClient.Unicode.Table

/-!
# Characters of domains

In a domain most characters stand for themselves.  Others stand for one or
more characters, such as their small letters, or for nothing, and the rest
must not occur.
-/

namespace SearchClient.Unicode

/-- Characters in a row, all or every other one, that each stand for one character. -/
structure Row where
  first : Nat
  count : Nat
  step : Nat
  target : Nat
  targetStep : Nat
  deriving Repr

def rows : Nat → List Nat → List Row
  | start, gap :: shape :: shift :: rest =>
      let first := start + gap
      let target := if shift % 2 = 0 then first + shift / 2 else first - (shift + 1) / 2
      ⟨first, shape / 6 + 1, shape % 6 / 3 + 1, target, shape % 3⟩ :: rows first rest
  | _, _ => []

def Row.image? (r : Row) (c : Char) : Option Char :=
  let place := (c.toNat - r.first) / r.step
  if r.first ≤ c.toNat ∧ place < r.count ∧ (c.toNat - r.first) % r.step = 0 then
    some (Char.ofNat (r.target + place * r.targetStep))
  else none

def texts : Nat → List Nat → List (Nat × List Char)
  | start, gap :: length :: rest =>
      (start + gap, (rest.take length).map Char.ofNat) :: texts (start + gap) (rest.drop length)
  | _, _ => []
termination_by _ table => table.length
decreasing_by simp; omega

/-! ## Tables -/

def admitted : List Span := readSpans
  "aExbBgBBzbcfbegbbabbtbbPgbbBlbcBxbccbbCcbiBabefbrvbbHjbbBvbcCgbcDwboCgbcBwbcobbBbbcabbkbfBfbhCwb
   bGebbhbcbbcvbbgbbabddbcibcbbcdbiabebbbebcybccbbfbebbcvbbgbbbbbbbbbbcabbebebbccbdabhdbbabhqbkcbbi
   bbcbbvbbgbbbbbebcjbbcbbcbcabpdbclbhgbbcbbhbcbbcvbbgbbbbbebcibcbbccbhcbebbbebcrbkbbbfbdcbbdbdbbba
   bbbbdbbdcbdlbeebdcbbdbcabgaboubfmbbcbbwbbpbcibbcbbdbhbbbcbbbbcdbcjbhvbbcbbwbbjbbebcibbcbbdbhbbfc
   bbdbcjbbcbmmbbcbbBybbcbbfbepbczbbcbbrbdxbbibbabcgbdabefbbabbhbgjbccbmCfbeBcbBlbbbabbebbxbbabbwbc
   ebbabbgbbjbcdbBgCtbbBjbeBmbbBjbbobbmbBlHpbbabfabcOmbbdbcgbbabbdbcBobbdbcBgbbdbcgbbabbdbcobbCebbd
   bcCobcBfbdzbgDhbcfbcYpbbBbbdDkbhvbjxbjtbmmbbcbbbbmDpbcjbgjbgzbgDkbhBqbfCrbkBebblbelbeabdBpbceblB
   rbezbgkbdCjbcCmbbBcbckbgjbgnbcBtbclbuCybbGjbiChbdobdCjbfBqbckbiBqbfUnbcfbcBlbcfbchbbabbabbabbBeb
   cCabbobbnbcfbbsbccbbibbnbctbdabhCbbfhbcBabbmbdBhboBgbpFjbeZpbwkbvBnbuCPjbcOrbfBsbbabfabcCdbhbbox
   bjgbbgbbgbbgbbgbbgbbgbbgbbEvbBizbbDkbmIfbBqClbbDhbcDybfBqbbDpbbDhbkBubbQbbbdbbpbbBQRrbdCcbjNjbuH
   bbiImbuChbdjbgCdbiCrbilbgElblBdbdCzbbkbeBgbbCcbjnbcjbcDybyBbbkfbcfbcfbjgbbgbbChbeEvbcjbgQNrbmwbe
   BwbMNcObbcEbbBmgbmebfzbbebbabbbbbbbbYzbBgBhbbfbhpbbBgbcsbbdbeebbFebcabbHhbdfbcfbcfbccbdgbbgbrlbb
   zbbsbbbbbobcnbBiEsbfcbeBsbdDjbbmbdabBvBtbFaBcbdBwbpBbbeBjbjBdbfBqbfBdbbBkbenbBqGbbcjbgBjbeBjbeBn
   biBzbllbbobbgbbbbbkbbobbgbbbbdBzbmLybjvbkhbyfbbBpbbibCrfbcabbBrbbbbdabcwbbCtbiibBwsbbbbfBgbdBabf
   BabBmCdbetbcBxbbbbfhbbcbbBcbccbejbhibhClbBgBmbelbjCbbdBcbcBabfzbhdbmgbDcCubCdBybnBybhBtbijbgBlbd
   BcbibbIaBebbBpbbcbcbbqfbiibBhBtbiBpbwzbBmBbbuwbjCzbeBjbjCjbbebnybhjbgCabbrbiBmbjDrbbtblrbbBubCkg
   bbabbdbbobbkbgCgbfjbgdbbhbcbbcvbbgbbbbbebbjbcbbccbcabgabfgbcgbdebljbbabcabbBlbbjbbabcabbdbbjbbbb
   ibbBdDnbbebBeCtbijbGkCbbcBlbBiCqbljbgmbtCfbgjbgtbBcBabcobewbHdChbDwDebmhbcabchbbbbbBdbbbbclbjjbC
   shbcBtbckbBbCtbiDebnCubhjbDihbDkBhbojbgibbBsbbnbkBcbdBfbcvbbnbCvgbbbbbBrbdabbbbbibijbgfbbbbbBkbb
   bbbfbhjbgBrbejbJmybhqbbBobdBcbDhabpBxbnBJmbDyEgbbeblHnbDXkDubnBPfbqvbkFXqbfWkbKDdCfbCOsVwbhBebbj
   beDcbbjbgBdbcfbkCrbkjbbgbbubfsbQqCfbHqDmbfybcybBsCwbeCebhqbCmeblgbjKXxbBpBfbDtEkbMWrdbbgbbbbbLeb
   pabBdcbcabodbiPfbDKuEcbfmbdibhjbchbFVgJsbdQtbgwbpqbpBtbcwbjElbCiJlbkBmbcHlbvCrbEstbmtbmDibjybFfD
   gbbCsbbbbcabcbbcdbblbbabbgbbCmbbdbchbbgbbBbbbdbbebbabdgbbNbbcLfbcBAzbpebbobBQmBebgfbIfgbbqbcgbbb
   bbebfCjbBhabEiBsbdnbcjbebbMiBebrCfbfabRwBpbIgBqbeabHkBebbvbibbIqgbbdbbbbbobbHobcpbBpCxbejbebbBEf
   CpbCyCibHmdbbBabbbbbabcabbjbbdbbabbabgabeabbabbabbcbbbbbabcabbabbabbabbabbbbbabcdbbgbbdbbdbbabbj
   bbqbfcbbebbqbCabbKkBrbeDvbmobcobbobbBkblGqbCeBcbnBrbeibhbbofbFyBLwbdqbdmbdIjbglbeabplbeCdbijbgBn
   biBdbclbebboibBnNfbinbcmbdkbdCebbabepbclbejbhFqbbDybBNpCLFbbBgGMnbcIObbcLBkbpXxbDQwUvbCFyHHybfMO
   nbBOGXyJfb"

def replaced : List Row := rows 0 (numbers
  "CnFvCmDrbJvkbFpihJvdbCHqebKlbbFtgFdCmyBlCmBoFncCalcfrcixcjFhcBubJhbrcgbUpcbQeblcebPwbbcchPucbcdb
   GcbiPocbccbPubbPycbQgbbQcbbcebQgbbQkcbQmbrcgbQubbccbQudbccbQubbcchQsclcebQwbbcebcrBvcrCbcwbccbHl
   bbEhbEpcBobJzcCbcybBFYkbbccbMnbbBFYedbccbOzbbFibbFmbBdcEclBSxbbFtcbBSjbiEncbEbbiBShBpbJpbbBWjbbB
   VxbbBVpbbGbDohExdbDrcbIyBrlcebOjcbcibCMfbbIyhkCybbCDjchCwdkEydbEwcDtCmsBxCmBsbqbbChbbBxbbzbblbbr
   bbBdbbBrcCtcybEdbiDrdbEpbbExcbccbEdbbcdnJzdDnGeqHfCmDcDxcBqGfcCcbBebBpcpLbcDtIpDsDTbbbPoIpVMuBnb
   VMugbVMuBvbClBDkBfpDGaiSKpcbSJvbhSJrcbSJtbbSJfbbSHjbbEAIwbbchJtIXjBtnIXjEhkVUzbbVKvdhVVbcbUSfbBr
   VVbjkVVdbbUNrciVVdciVVbcbVWtbhUKtcbFfbiVWzcbVWxbiUKncbUKlbbVXbciVWxcbVFvbbVWvbbULpbhEtcbVXbbhVWv
   cbEpbbUKbbbVWzbbEfbnTLldhTKdcbVYnbbVXxbhVXtchTMdcbTLdbhTKvpbTCvBjbURhbbWDlbbURfbbVStbbUQvbbWDnbi
   UQtcbUQlbnUQhdbDjbbUMnbbUQhbbCvbbUMpbkUQfbbUQjcnUQhdbUQdbhUPlcbVGdbhUPdcbLzbhUPfcbWEbbnUPbdbTSnC
   nRhcFzbEldbWNtcLbcEaBrpqBfpqBrpqBrpqBfprxppBrpjwVAviqUYzClhpcbFrbbVGndbVFtklGpbkVHnkbVKnfhpcbHrb
   bVItibVJhfhpcbIpbbVHrbbndbXXljbJvblVIvbbJrgCiYDrrbbBebYHhBwbYKzrbYLbbbYGtdBfYLbgbYMfbbBFibbYKzbh
   YMrcbYHlbCdYMhkbYNlbbBEcbbYMfbhYNxdbYJtbbYJnbbYIvbbYIfbbWXhbbYJpbtYJlebYJjbhYJfDzbYSjfbXFzdhYSrc
   mYStdbYEhbgYSzcgYSxdbYSzenYTddgYTfibYTfcbWGfcbYTncbYUvbbYLnbhYVrdgYVrcbYVtbbCebiYVjctUTlebYWddbW
   IpbgWJrcbWIvbbQcfgYXlcbYXnbhYXhybYZdebYYlfbYYrdbYZvbhZApcbYZzbbZAjebYZrfbYZxdbZBbbhZBvcbZBfebcQg
   hJTmLzBxBBKnDiFvBBNlBaFvBBPlBabBBVfCRuKxDsDsbccbBFUjbbLHjbbBFTddrcgbBFXfbbBFUvbiBFXldbcdbchbBHJv
   bbBHIzbhBFZxcLncEdlchbcEvbBbLsbBUIuDgbDHIunbXMmbbXPmbbXQmbbXRcbbXTabbXWibbXWubbXYgbbYAebbZXsbbBA
   AobbBAAybbBACqbbBAEcbbBAFqbbBAJqbbBALebbBALybbBAXubbBBEybbBBHabbBBHibbBBJobbBBKebbBBMebbBBNcbbBB
   OybbBBSwbbBBUebbBBWebbBECgbbBEHsbbBFRabbBFSsbbBFTgbbBFUabbBFVibbBGBcbbBHLsbbBHPibbBHYmbbBIAebbBI
   BobbBIDebbBIHgbbBIHkbbBJJebbBJJwbbBJKsbbBJLqbbBJUmbbBJVabbBJVibbBKEgbbBKEybbBKFwbbBKGkbbBKLabbBK
   MgbbBKNobbBKTqbbBMMgbbBMPsbbBMRgbbBOWcbbBOWkbbBPCsbbBPDwbbBPEubbBPGibbBPJgbbBPJobbBQEabbBQFubbBQ
   IebbBTIgbbBTNgbbBTOybbBTTibbBTVcbbBTVsbbBTWebbBUAcbbBUAkbbBUCubbBXHsbbBYQabbBYQwbbBYRebbBYRkbbBY
   RybiBYTgcbBYZmbbBZQabbBZQibbCAQibbCARabbCAUubbCAVgbbCAVwbbCAWkbbCBDibbCBDubbCBVgbbCBVsbbCBZkbbCC
   AqbbCCEebbCCWibbCCWubbCCYabbCDXcbbCEGsbbCEHcbbCEVabbCFBqbbCFFcbbCGIcbbCGSgbbCIKibbCIMibbCIQqbbCI
   UmbbCIZqbbCJAkbbCJAubbCJDgbbCJJabbCJJsbbCKKgbbCKKsbbCKLibbCKLybbCKNcbbCKOebbCKOkbbCKUkbbCKUqbbCK
   VabbCNSkbbCNUqbbCPEqbbCPFmbbCPHebbCQCwbbCQDubbCQJebbCQMqbbCSEebbCSFgbbCSGibbCSIybbCSLsbbCTAybbCT
   BubbCTGwbbCTZwbbCUCebbCUSebbCUTsbbCUUabbCVKwbbCVYybbCWImbbCWIwbbCWJebbCZCybbCZDobbCZPmbbDABgbbDA
   BkbbDAEybbDAMybbDANwbbDAOcbbDAOobbDAWabbDAYobbDAYybbDAZybbDBMsbbDBQobbDBQubbDCEubbDCEybbDCGibbDC
   ZqbbDDDgbbDDDsbbDDJabbDDJsbbDDJwbbDDKobbDDMubbDERcbbDFVubbDFWmbbDFZibbDGAybbDGBmbbDGCebbDGCkbbDG
   FkbbDGFqbbDGGwbbDGHebbDGIcbbDGKcbbDGLebbDGLsbbDGQebbDGRgbbDGRmBrbBKGtcbBKFvCabCtcbBANybhBAOcJohY
   JxclXWzbbYJzcbXWzbnYKddBfXXbgbYJbbnYKrdbYIvbCdYKtkErYEtwhYMjchXYtciXYncbXYdbiXXxcbYMlbiXXrchYMpc
   iYMncbYMlboYMfdtYMbebYLxbbYLrbbYKzbbYKnbbYKfbhXXpcnYJpdhYGjcbYGfbhYFpcbYFnbbYEvbbYErebVNwbbVYobq
   VOkbbBCGacbVQycbBZFebbVUcbbVPcbbVNebbBDYubbBCLwbbWBeGjbBAOcbbBHMsbbBMVibbCDNcziZHfciZHdchZHbciZG
   zciZGxctZGvebDOCabbDROkbbDTHobbDWTybbDYNcbbEAGgbbEDSqbbEHFabbEIYebbEMKobbEODsbbEPWwbbERQabbETJed
   bEIGicbUVobbVGgbbUWcbbBBNsbbVGqbbXKqbbUVibbXKibbVCcbbYUibbBNTsbbBUWmbbBRRkbbBNVybbCUDybbBBSabbBM
   WwbbBOPmbbBNTebbCBNqbbZJebbBWKebbCQFebbCBPsbbYIibbCBZabbBYLubbBDKybbCTBebbXDqbbYWibbBSDubbCYUsbb
   VOabbXLubbBQZobkUTobbUWecbBGTqbbZFqbbYRkbbBEZybbBEWcbbBZRibbVLwbbCQGgbbYSwbbBDCqBgBaBQxfCqBQpmuB
   PpezBPjfbBPfbbBPbbbBOxbbBOtbzBOpfoBOndzBOjftBOhBRQzFhcCmDfcBciESYlFeBpcqHdcCkbbjlcebEANvbBdcnbcc
   bEVChdlcgChcubEVElbbEVFhbbEVEzbbEVEfbbEVElcbEVApbbEVClbbEVAvbbCTkbBvcqbDrbbEVEjbbEARvblcebEVHdbB
   vcqbEVXxvbEWWhbbEWXpbbEWXlbbEWWrbbcdbEWIzbbEWFrBHjbDEvbbCxbbEXYzbbzkbEXXfhShEKZnBDJsbDEIxbbEGQbb
   bDCLrbbDDZhbbEARlbbEZJxbbEVBtbgCPSvcbEQZfbbDAErbbETVzbbERAdbbEKLhbbDUYrbbDOBjbbDIYzbbDHVxbbDGXnb
   bDBEdbbEEJjbbECAlbbDZEvbbDWXlbbDKNdbbDANtbbCUBxbbEZFlbbEVMbbbEDQfbbDYGrbbDJBnbbCQYdbbEOAjbbDZYbb
   bDJJfbbDGQpbbEJWxbbDMJjbbDHPvbbEMXvbbEGQlbbEBVzbbDXQjbbDBBfbbEYMvbbEWVtbbEVZdbbEIKtbbEDVnbbDYJbb
   bDURvbbDNUrbbDJGfbbDIZrbbDDGpbbCWGhbbCTAxbbCRCxbbDTMbbbDSTlbbDPQfbbDKYzbbCZLdbbCQTdbbDFQjbbERMjb
   bEMVlbbDQPjbbDNMjbbDYEhbbDTIfbbDEFbbbCWMdbbERNnbbEOVxbbEEMjbbEBQbbbEASjbbDQAhbbDPGbbbCWZzbbEWCtb
   bDNMlbbEWVvbbEWXdbbDSJjbbDPPxbbDKXxbbCWXjbbDFFfbbEKApbbEEOxbbDFPlbbEZQfbbEPGxbbEMCxbbDXJvbbDVYhb
   bEVYtbbDTGrbbEYMtbbEMLlbbEZUhbbECMxbbEIBhbbDQDjbbEVMdbbERZnbbDUUhbbDKSvbbDFXhbbEDIpbbDCCnbbECSxb
   bEJYvbbDLUrbbEJMnbbDWArbbEZJdbbEXHlbbEXAdbbEFUvbbDQJfbbDMEjbbDFVhbbDANtbbEWDnbbEVDzbbERFvbbENCdb
   bEHXjbbEAEdbbDTFpbbCXQfbbCUAzbbCQWvbbCQSrbbEWLhbbEHEfbbEDPxbbDCKrbbENMhbbELDdbbEKUpbbEIVlbbEAWbb
   bDZFvbbDWTxbbDSUnbbDPQpbbDNTvbbDCQdbbDKJlbbDBWvbbCZMvbbEWWvbbEWMdbbEUWvbbDZQrbbDHMpbbDGBdbbENHhb
   bEMKhbbEJSzbbEDNpbbDQZnbbDXQpbbEZItbbETFrbbEPMrbbEOCvbbEMHzbbDXMjbbDWYjbbDOMbbbDNYxbbDAJxbbCWUhb
   bCWObbbCVYdbbEYWxbbDSZfbbDAUfbbCWZnbbELTvbbEZRjbbEXXpbbEPNnbbEPHjbbEIFhbbEEWnbbDYZbbbDVPlbbDKLnb
   bDBTdbbCQInbbEHNlbbCXLfbbEWRjbbEGUzbbEGLvbbECLlbbEBKvbbDXIbbbDWIhbbDTZxbbDQMnbbCVUxbbEXNzbbEKWdb
   bCXGnbbEYMzbbEOSlbbEBZjbbDCUrbbEMWnbbELOrbbEGKjbbDXTfbbCXGdbbEXAlbbEVPdbbEPHbbbEHYnbbEHAjbbEFZvb
   bECUlbbDXKdbbDVZpbbDOSvbbDHRbbbDHPtbbDAWfbbCXAdbbEWGdbbEBLbbbEVPfbbDZClbbDWZtbbDJVnbbCXFnbbCSXhb
   bCRElbbEGWfbbECEdbbDMYdbbDSIhbbDSBvbbDQZlbbDYKxbbEABjbbDFUtbbEZSbbbDLZbbbEXBtbbEXFtbbENRhbbEKNdb
   bDQUzbbEQBdbbECSrbbEHPbbbDCXbbbDIDrbbCXNzbbDHFhbbENOpbbEXVzbbEULldbESMlcbEHUxdbEXKnbbDYExbbDVLpb
   bDTPnbbDTMzbbDTMnbbDTJjbbCWVbbbDQYvbbDORxcbDJXjcbDGFbdbDCFxbbDBQvebCVQrbbCVPtbbCVMlbbCSAzbbDBTvb
   bCXItbbEZDrbbEYFrbbEXXxbbEWUtbbEWStbbEWKlbbEURhbbEUJhbbEUBvbbESRpbbESJrbbEPOfbbEPNnbbEMJxbbELTrb
   bELQvbbELJfbbEIVbbbEIJvbbEHWlbbEGKbbbECQtbbECEhbbEBKbbbDZQxbbDZClbbDXPvbbDUGpbbDTTjbbDTSpbbDTStb
   bDTSfbbDTRvbbDTRjbhDTNtcbDTAdbbDSVfbbDRWtbbDQFlbbDQDxbbDPZrbbDPChbbDORbbbDNFpbgDMUxcbDLKhbbDHVjb
   bDHLdbbDGJhbbDGFbbbDEZpbbDEVpbbDCUxbbDCKzbbCXJtbbCWNzbbCWJlbbEMPvbbJOVcbbDNDpdbFAMtbbEXUtbbEYAtb
   bEZMjbbEYDpbbEXZdbbEXAbbbEWWfbbEUWjbbEVBzbbEUWvbbEURhbbESUtbbESNzbbESCxbbESBtbbERHbbbEQRxbbENXvb
   bENXjbbENMjbbENHfbbEMKhbbEMBhbbEMGtbbELWnbbEMAdbbELOzbbELJzbbEKFhbbEJYpbbEJUnbbEJApbbEIErbbEHSfb
   bEHRzbbEHNnbbEEKdbbEEFfbbEDBfbbEBVtbbEBXbbbEBQlbbEAXdbbDZXjbbDVExbbDZIfbbDYYxbbDYPnbbDXQlbbDXFbb
   bDXBbbiDWJtcbDVWpbbDVVjbbDVTnbbDVMzbbDVNvbbDUJlbbDSYfbbDSDlbbDRPdbbDQXzbbDQMhbbDPMzbbDOXtbbDMKvb
   bDLYvbbDJHfbbDHYfbbDHSzbbDHRvbbDGVbbbDGQtbbDGUhbbDGQfbbDGQnbbDGRxbbDGMdbbDGFzbbDFCrbbDDLrbbDCNpb
   bDBQzbbDBAbbbCXYxbbCXRbbbCXIhbbCWYdbbCWVlbbCWUpbbCWQzbbCUNdbbCRBvbbIUIwbbIUIibbJDCabbFOVhbbFLLdb
   bFLIrbbKADkbbKICqbbLHWibbCRJlbbCRDtCtbHDTjbbHDUvbhHDUrcnHDUfdiHDTlcbHICpBngHDMbcsHDLlesHDLnesHDL
   resHDMlesHDMjesHDNdesHDKdesHDKhesHDNfesHDNpesHDNresHDNxegHDNtcgHDNzcgHDNzcgHDOpcgHDNncgHDOfcsHDM
   nesHDMjesHDMjesHDMvegHDMlcsHDMnegHDMlcsHDMnesHDNbegHDLvcgHDLxBjsHDRnegHDPvcgHDQbcgHDQbdgHDQbcgHD
   QrcgHDQncsHDQdegHEAvusHDShUmbHKHrbbGABvchHKGvcbHKIxbbHKGrbhGAArBabGMFxbbGMGbbgHKGlchHKKvciHKEpch
   GADlchGADxchGAEnchGAEvctGAErgiHKIhgmHKIldbHKMpbbGAGtdbHKLtbbHKLxbbHKLpbbHKNzbbGMIxbhHKNpciHKHjch
   GAGfcbHKOlbbHKOhbhHKObcbHKNzbiHKMxcbHKMzcbHKKtbhHKPdcbHKNdvBiHGCzbBcHGCzkqHGDlbqHGDnfqHGDtbqHGDv
   fgHGEbcsHGEdesHGEjesHGEpesHGEveBcHGFbbBcHGFdjgHGFncsHGFpesHGFvesHGGbesHGGhesHGGnesHGGtesHGGzesHG
   GtesHGGzesHGHfesHGHlesHGHresHGHxesHGIdeqHGIjbqHGIlfgHGIroHfHLBbBgFvHKYpBaIdHLBbBkhGFZfcbHLHlbhGB
   AxcbGBBxbbGAItbbGAJnbBaGAPvfoGALddbGANvbbGAJnbBaGAQnfCqGAQfmuGAPfezGAOzfbGAOvbbGAOrbbGAOnbbGAOjb
   zGAOffoGAOddzGANzfbGANxbbGANrbhGAUrdhGYTdclGYGfbbGYTfcbGYGfbnGYTjdBfGYGhgbGYShbnGYTxdbGYSbbCdGYT
   znBfGYOfiBfGYOjiBfGYOninGYOrghHLIhcbHLHrcbHLIhbbHLIlbbGNCbcbGJUpbtGMKnebGJIvbbGJFpBOcJbDcGuIdDcH
   kEjDabBdDamBpDaqrDaibDaSyhHPLpcbHQXlbbHPQbbbHPVnclHPPnbbCRUhcbHPPrbhHPVtcbGVFrbbHPVvbbHPVlbbHPPt
   bbHPVdbbHPVjbbHPVpbkHPRdbbHQTvcbHPVjbbHPTfbhHPQjcbHPVhbbGHDwbbCUTpbbHPVjbkGHDsbbHPTbcbHQYlbhHPVd
   cbHRJbbbHPVbbbGHDibhHPUzcbHPUxbbHPRxbkHPSdbbCRXbcbHPUrbbGKBlcbHPUjbhHPTbcbHPTxbnHQKpdbGHCcbbGHDo
   BVaLpEyIaExCmEHkHfCmBGLcHfCmDsFpCcBJRqFvNKTlBaCdNKZfCRoFvNQEnBaFvNQGnBaFvNQInBaCzNQKnbrNQKniCbNQ
   KnrFvNQMnBaFvNQOnBalNQQndbNQQndbNQQndhNQQnetNQQnfBrNQQnitNQSnfCnNQSndrNQSniBdNQSnkFvNQUnBaFvNQWn
   BahNQYndtNQYngBrNQYnjBlNQYniFvNRAnBahNRCndtNRCnfzNRCngbNRCneBlNRCniFvNREnBaFvNRGnBaFvNRInBaFvNRK
   nBaFvNRMnBaFvNROnBaFvNRQnBaFvNRSnBaFvNRUnBaFvNRWnBaFvNRYnBaFvNSAnBaFvNSCnBabNROnbbNQUldDtNPRprbN
   PSjbBlNPRphbMSUdbDtNPTprgNPTncBfNPTpgbMSWnbbNPVhbiNPVdcbNPUfbbNPUrbbNPUvbDtNPWbrbNPWvbBlNPWbhbMS
   YpbDtNPYbrgNPXzcBfNPYbgbMTAzbbNPZtbiNPZpcbNPYrbbNPZdbbNPZhbDtNQAnrbNQBhbBlNQAnhbMTDbbDtNQCnrgNQC
   lcBfNQCngbMTFlbbNQEfbiNQEbcbNQDdbbNQDpbbNQDtbDtNQEzrbNQFtbBlNQEzhbMTHnbDtNQGzrgNQGxcBfNQGzgbMTJx
   bbNQIrbiNQIncbNQHpbbNQIbbbNQIfbDtNQJlrbNQKfbBlNQJlhbMTLzbDtNQLlrgNQLjcBfNQLlgbMTOjbbNQNdbiNQMzcb
   NQMbbbNQMnbbNQMrbgNQKneCdNTFfkCdNTFzkCdNTGtkCdNTHnkCdNTIhDDaBxNWNnjnNWNldCjNWNjliNWNfcbNWNdbbJDQ
   nbbNWCpbiNWMtcbNWBpbbNWGdbbNWDtbBxNWQbjhNWPzchNWPvciNWPtczNWPrfhNWPpcbNWKhbbNWOxbbNWPbbbNWOjbbNW
   IpbbJDXlbbNWIhDGlHrCqBXghOFMvcbOFMpbbOFMlcbOFKrbbOFMlbbOFMxbbOFMfbbOFKvbtOFLlebOFMzbbOFMpbkOFMbb
   bOFNbcbOFNnbbOFNjbhOFOfciOFObcoOFNpdbOFJnbbOFDtbbOFFtbbOFJrcbOFPhbbOFPbcbOFNddbOFPjcbOFNhbtOFNxe
   bOFPlbbOFPbbkOFOnbbOFPndbOFPvbhOFQrcbOFQncbOFQbcbOFPxhbOFRnfbOFRvcbOFPtclOFQjdbOFRxbbOFRncbOFRzb
   bOFRbcbOFShdbOFSzcbOFSncbOFSjcbOFIrcbOFOpcbOFUfbbOFTzcbOFSbdbOFUhbbOFTpbbOFSfblOFSvdbOFSvbbOFUjb
   bOFTzbkOFTlbbOFUldbOFUtbhOFVpcbOFVlcoOFUzdbOFQxcbOFNdchOFWrcbOFWlbbOFWhbhOFUncbOFWhbbOFWtbbOFWbb
   bOFUrcnOFVhdbOFWvbbOFWlbkOFVxbbOFWxcbOFXjbbOFXfbhOFYbciOFXxcoOFXlibOFZdbbOFYxbbOFYtcbOFWzbbOFYtb
   bOFZfbbOFYnbbOFXdcnOFXtdbOFZhbbOFYxbkOFYjbbOFZjcbOFZvbbOFZrbhOGAnciOGAjcoOFZxYcbOMGtbbOMFreFvOMH
   hIcbNCHtobLQUjbbLWBjbbMBTzbbNCHrbbMFTnbbLXTtbbKMVdbbLXStbbMFRzbbLNXpbbLFOzbbLOIdbbMCYfbbLSXlbbMD
   NdbbLOGrbbMDCfbbKWKrbbLCOzbbKKTnbbLXYdbbMBNbbbLHEhbbLQQlbbLQBtbbMGFxbbMGFhbbKIArbbLUFbbbMGCtbbMB
   TdbbLQIhbbKKFfbbLQWhbbKZHxbbKYOvbbMBRzbbLHQvbbLNHxbbLNIbbbLCPdbbMCXpbbMALjbbKHHzvbLTAnbbMBWdDQtC
   dOUOtDRLwbTWJlbbTWJxbbTWJhbbHEZpbbTVNjbbTVHlbbTVGnbbTVBdbbTURzbbTUPrbbTUJtbbTULrbbUPUxbbHBEbbbTU
   CfbbTUBtbbTUApbbTTZfbbHCAlbbUPTjbbTUArbbTTXvbbHBXdbbTTXfbbTTWhbbTWAjbbTTVvbbTTVfbbCZLhbbTTQlbbTT
   PlbbUPRjbbTTLhbbTTKnbbTTHfbbTTGxbbUPNpbiTTAxcbTSYvbbTSXfbhTSWlcbTSVfbbTSRlbbTSQxbbTSQhbbTSOlbiTS
   NtcgTSNtcbGYHjbbSWQbbbTSIhbbTSGtbbGXJtbbTSFzbbTSFpbbTSEbbbTRSlbbTSAjbbTRZfbbTRWvbbTRSlbbTRMbbbTR
   KdbbTRFbbbTRDxbgTRBlcbTQZzbbTQYrbbTQYdbbTQXbbkTPWzbbTQRzcbTQMjbbTQJtbbTTSzbbTONdbbTPJjbbTPGnbbTP
   ErbbTPOtbbTPBzbbTPCdbbTOStbbGQHdbbTONnbbTONfbbTOMdbbTOKrbbTOKdbbTOFhbbGOYxbbGOTxbbTNUxbbTNRjbbTN
   QnbbTNWrbbTNLvbbUOIjbbUOHjbbTMZpbgTMVncbGMQhbbTMLnbbTMJzbbTMIxbbTMIbbbGLQvbbTMHhbbTMGvbbTJTxbbTM
   EvbbUNYfbbTMAfbbTLZfbbTLSzbbTLWzblGJOnbbTLJdcbTLFzbbTLGhbbTLFbbhTKXjcbUNLvbbTKVlbbTKSfbbTKQrbbTK
   NjbbUNIhbbGGWhbbUNGlbbTKIfbbTKIbbbTKHxbbTKGlbbCMJpbbTKCpbgGFPvcbSJPjbgTKAdcbUNBpbbFTWnbbEKElbbTJ
   VpbbTJUzbbUMZvbbTJRnbbTJNrbbTJMzbbTJKlbbTJAbbbUMTpbbUMVzbbTIYvbbGCXrbbTIVbbbTILfbiTIKzcbTILdbbTI
   HrbbTIGfbbTIDnbbTIErbbTIDxbbTIAjbbTHYxbbTHYrbbTHWtbbTHVzbbTHQzbbTHKpbbTHHzbbTGYnbbFZUdbbTHAdbbTH
   FfbbTGWzbbTGUzbbTGNpbbFZCzbbTGIzbbTGQfbbTGSlbbUMDjbbTGDvbbTGChbbTFZzbbTGCzbbULYzbbTFMnbbTFKjbbFW
   BfbbTFBjbbTEGdbbTETrbbULMfbbTEOhbbULNrbbULQnbbTULzbbTULvbbTEGdbbTENxbbSKUrbbUEWpbbTEErbbTEElbbTE
   EbbbTDZlbbTEAjbbFTHjbbULJtbbTDNtbbTDWvbbTDHdbbTDDhbbFSUtbbTDCtbbTDLjbbTCSpbbULDzbbTCPfbbTCHvbbTC
   ClbbTBNxbbFRDxbbTBKdbbUKVbbbTBExbbFPQnbbTBBdbbUKRfbbTAYzbbTAVpbhTATpcbFOFrbbGKOvbbFNXlbbTAIpbbFM
   OzbbTAAbbbSZZbbbTAGzbbSZTpbbSZQpbbSZMhbbSZQnbbSZNnbbSZMlbbSZLnbbFMIhbbSZRxbbSYYrbbSYTxbbUKBlbbSY
   MxbbSYNhbbFLBjbbSZDhbbSYArbbFKQtbbFKNdbbSXUdbbSXLjbbSXNnbbSXNvbbUJUtbbSXKjbbSXGnbbSXHbbbSXCzbbHC
   UdbbSWRlbbFIKhbbSWKxbbFHLfbbSWAhbbSVZjbbSVXjbbFFQzbbSVTvbbSVShbbFEUbbbFECzbbSVAxbbSUZrbbUJAxbbSU
   XvbgUJAdcbSULpbbSUKbbbSUInbbSUHbbbSUBvbbUITbbbSTVbbbFBArbbSTTfbbFATtbbSTPnbbGHHrbbSTDjbbEYLvbbEY
   KdbbEXZlbbUICpbbUIBtbbSSMhbbEXMhbbEXMlbbEXJnbbEXHpbhSSJlcbSSJnbbSSGhbbUHYtbbSSBlbbUHXxbbUHRvbbEV
   CxbbSRMtbbSRIbbbSRDfbbUHMhbbETPfbbSQSvbbETGlbbETDfbbSQOrbbSQHrbbUHGzbbSQBhbbSQApbbSQAhbbERChbgEQ
   FjcbSPOjbbUGRjbbEPLrbbSOXzbbSOXvbbUGOvbbEOVpbbSODrbbUGFtbbSOCdbbSOCpbbSOAlbbEMOnbbSNSzbbUFYtbbSN
   LlbbSNGzbbSNBxbbUFVdbbEKPfbbEKMxbbUFSnbbEKBvbbSMEpbbEJUfbbSMCrbbSLUzbbSLUfbbEIOvbbEIJhbbSLNlbbEH
   ZfbbSLMjbbFUBpbbUFJzbbSLHnbbSLBjbbUFGbbbSKWzbbTOBxbbEGMpbbEGLpbbFTYhbbFTXrbbSKIlbbSKIhbbSAAnbbUE
   ZlbbSJXrbbSJYfbbSJWxbbTUEnbiSJVncbSJUtbbSJRrbbEDVhbbSJRxbbSJNrbbSJIjbbSJCtbbSJNlbbSJBrbbSIYnbbSI
   PzbbSJKbbiSJAzcbSIZtbbEDDbbbECFjbbECQzbbUEMpbiSIEvcbSICdbbDXKjbbSHWhbbEAXlbbUEJhbbUEJbbbEANlbbDZ
   RhbbUEInbbSHErbbSHDvbiSHDbcbSGYdbbSHAtbbSGQnbbSGTzbbSGIlbbSGOtbbSGJrbbSGHrbbUEBfbbSGAvbbSFYlbbUD
   YvbbSFRhbbSFRdbbDVMxbbSFIjbbSFHxbbUDUrbbSFFxbbURAzbbDTUnbbDTGlbbUDKnbbUDJxbbSDZxbbSDUbbbSDIbbbSC
   SnbbDQUvbbSCMbbbSCKlbbSCDpbbSBWpbbDOXlbbHBEfbbSBQjbbSBRpbbSBNrbbHANtbbSAWhbbSAOrbbDJXjbbDJVjbbRZ
   OdbbRZHbbbRZErbbDIWzbbRZEbbbRYIfbhRXWbcbRYDfbbRWZzbbRWXxbbDFHdbbRVVhbbUBJfbbRVSbbbDEEdbbUBDfbbRU
   XrbbTMDnbbRUQlbbDBHpbbDARhbbUATfbbUASrbbRUChbbCZFlbbUAOhbbCYUvbgRTZhcbRTXdbbCXYzbbRTJbbbUAExbbRT
   DtbbRSUdbbRSSdbbRSNpbbTZTjbbCTVtbbRRSpbbRQVlbbRQGzbbTZAbbbTYXtbbRPZbbbCPPrbbTYXdbbCPLpbbCORhbbCO
   HhbbROZjbbTYQhbbROUtbbROUlbbROTzbbROThbbROSvbbROQbbbCLSj")

def expanded : List (Nat × List Char) := texts 0 (numbers
  "GmcBgBDwfaccBgBDsfcBgBDpecBgBFbedBxMFsCabdBxMFsBybdBzMFsCaEkcEbBDvccEbEcbcEbEcmcEeHbbcEeHbjcBAyE
   gEtcDwOsbcDwOsbcDwOsbcEeEcbcEeEcbcEeEcbcEgEcbcEgEcbcEgEcBlcDwEsbcDwEsbcDwEsIvcBgBDubcBgBDvbcBgBD
   ybcBgBFcbcBgBDrbcBgBDzDzcBDwBDplaBrcBgBKrkcBgBDpbdBgBDwBDpTucCBdCCgJecCIpCLobcCJwCLobcCOtCLobcCJ
   yCLoBCicDLlDMybcDLmDMybcDLnDMybcDLsDMybcDLxDMybcDLyDMybcDMhDMybcDMlDMyEvcDQvDRwbcDQwDRwccDRjDRwD
   gcDWkDWudcDWqDWuBjcDViDWubcDVjDWubcDVoDWudcDWdDWuJucEFpEGqbcEFqEGqBBycFKvFJuEycFPtFOsBpcFOlFNtbc
   FOlFObDycFUgFYtkcFUqFYtfcFUvFYtfcFVaFYtfcFVfFYtncFUeFYrkcFWbFWcccFWbFWebcFYoFWqbdFYoFWbFWqbcFYpF
   WqbdFYpFWbFWqicFWbFWqscFXiFYtkcFXsFYtfcFXxFYtfcFYcFYtfcFYhFYtncFXgFYrQgabaCKiabaDiababababaCMlcD
   tBBaIwcLTgBKrbcLThBKrbcLTiBKrbcLTjBKrbcLTkBKrbcLTlBKrbcLTmBKrbcLTnBKrbcLTgBKrbcLThBKrbcLTiBKrbcL
   TjBKrbcLTkBKrbcLTlBKrbcLTmBKrbcLTnBKrbcLUmBKrbcLUnBKrbcLUoBKrbcLUpBKrbcLUqBKrbcLUrBKrbcLUsBKrbcL
   UtBKrbcLUmBKrbcLUnBKrbcLUoBKrbcLUpBKrbcLUqBKrbcLUrBKrbcLUsBKrbcLUtBKrbcLWyBKrbcLWzBKrbcLXaBKrbcL
   XbBKrbcLXcBKrbcLXdBKrbcLXeBKrbcLXfBKrbcLWyBKrbcLWzBKrbcLXaBKrbcLXbBKrbcLXcBKrbcLXdBKrbcLXeBKrbcL
   XfBKrdcLXoBKrbcBKjBKrbcBKeBKrdcMAgBKrfcBKjBKrbcBgBEhccBgBEhbcBgBGcbdBgBDwBGcbcLXsBKrbcBKpBKrbcBK
   gBKrdcMAwBKrfcBKpBKrbdBgBEhBDobdBgBEhBDpbdBgBEhBGcodBgBEiBDobdBgBEiBDpbdBgBEiBGcodBgBDwBDobdBgBD
   wBDpecLYaBKrbcBLhBKrbcBLmBKrdcMCsBKrfcBLhBKrbcBgBDpbcBgBEinamcBgBFnBccMFaMFabdMFaMFaMFaccMFdMFdb
   dMFdMFdMFdfcBhBhccBgBDtjcClClbcClBhbcBhCloeMFaMFaMFaMFajababababagabababababaCfcEkElDkdDtBvDvbdD
   tBvElccGuDvcdDvBvEhbdDvBvEndcGuDyncEgEhkcElEfbdEmDxEebcEmEfzdDyDtEqvdBxMFsCdbdBxMFsCfbeBxMFsBxBw
   bdBxMFsBzbdByMFsBzbdBxMFsCbbdByMFsCbbdBzMFsCbbdCaMFsCbbdBxMFsCcbdCbMFsCcbdBxMFsCebdBzMFsCebdCbMF
   sCebdCdMFsCebcBxMFsccEbEbbdEbEbEbbcEbEoccEoEbbdEoEbEbbeEoEbEbEbbcEbEqccEqEbbdEqEbEbgcEbEbbdEbEbE
   bbcEbEoccEoEbbdEoEbEbbeEoEbEbEbbcEbEqccEqEbbdEqEbEbodBwMFsBzGhcMYlMYlbdMYlMYlMYlccMYoMYobdMYoMYo
   MYoVxcBxBwbcBxBxbcBxBybcBxBzbcBxCabcBxCbbcBxCcbcBxCdbcBxCebcBxCfbcByBwbdBoBxBpbdBoByBpbdBoBzBpbd
   BoCaBpbdBoCbBpbdBoCcBpbdBoCdBpbdBoCeBpbdBoCfBpbeBoBxBwBpbeBoBxBxBpbeBoBxByBpbeBoBxBzBpbeBoBxCaBp
   beBoBxCbBpbeBoBxCcBpbeBoBxCdBpbeBoBxCeBpbeBoBxCfBpbeBoByBwBpvdBoDtBpbdBoDuBpbdBoDvBpbdBoDwBpbdBo
   DxBpbdBoDyBpbdBoDzBpbdBoEaBpbdBoEbBpbdBoEcBpbdBoEdBpbdBoEeBpbdBoEfBpbdBoEgBpbdBoEhBpbdBoEiBpbdBo
   EjBpbdBoEkBpbdBoElBpbdBoEmBpbdBoEnBpbdBoEoBpbdBoEpBpbdBoEqBpbdBoErBpbdBoEsBpCApeMYlMYlMYlMYlEadC
   gCgCjbcCjCjbdCjCjCjDycQGbBFsCEpcBgSKnbcBgSKodcSJwSJyDscSLnSMiDxaGadBoGLkBpbdBoGLmBpbdBoGLnBpbdBo
   GLpBpbdBoGLqBpbdBoGLrBpbdBoGLtBpbdBoGLvBpbdBoGLwBpbdBoGLyBpbdBoGLzBpbdBoGMaBpbdBoGMbBpbdBoGMcBpb
   dBoCNDoBpbdBoCOWuBpbdBoCPTkBpbdBoCRMqBpbdBoCSJgBpbdBoCTFwBpbdBoCUZcBpbdBoCWSiBpbdBoCXOyBpbdBoCZI
   eBpbdBoDAEuBpbdBoDBBkBpbdBoDBYaBpbdBoDCUqBpbdBoCYCyBpbeBoCXAyCXTkBpbeBoCXAyDDIqBpcdBoBDOaBpbdBoB
   DTkBpbdBoBDOjBpbdBoBGXfBpbdBoBDTsBpbdBoBEVtBpbdBoBDOdBpbdBoBEVrBpbdBoBDRpBpbdBoBFNtBpbdBoBNAmBpb
   dBoBQOxBpbdBoBOZkBpbdBoBNBsBpbdBoCDFtBpbdBoBGZvBpbdBoBMPhBpbdBoBNLqBpbdBoBNAnBpbdBoBTXuBpbdBoBFV
   pBpbdBoBRJdBpbdBoCBGrBpbdBoBTYzBpbdBoBFIiBpbdBoBDWtBpbdBoBFZwBpbdBoBIPyBpbdBoBTApBpbdBoBDXxBpbdB
   oCBIdBpbdBoBFOmBpbdBoBTZpBpbdBoBDYnBpbdBoBXFeBpbdBoBXFnBpndEiEmDxbcByBxbcByBybcByBzbcByCabcByCbb
   cByCcbcByCdbcByCebcByCfbcBzBwbcBzBxbcBzBybcBzBzbcBzCabcBzCbBdcCZIuCNMebcCYCyCXMuCacBzCcbcBzCdbcB
   zCebcBzCfbcCaBwbcCaBxbcCaBybcCaBzbcCaCabcCaCbbcCaCcbcCaCdbcCaCebcCaCfbcCbBwbcBxBNAmbcByBNAmbcBzB
   NAmbcCaBNAmbcCbBNAmbcCcBNAmbcCdBNAmbcCeBNAmbcCfBNAmbdBxBwBNAmbdBxBxBNAmbdBxByBNAmbcEaDzbdDxEkDzb
   cDxEobdEeEmDwBwcBDWuBGAmbeSKwSMrSOiSMibeSKwSNrSMvSKvbeSKwSNzSNaSKwbdSKwSOiSNrbeSKySMlSNzSLkbdSKy
   SNzSMbbdSLaSLdSNzbfSLcSLtSLjSOiSMjbeSLcSOiSLfSOibdSLeSNzSLtbdSLeSOiSNgbdSLfSKySNqbeSLfSNpSMdSMib
   eSLfSNtSNqSOibdSLgSNtSNzbdSLgSNzSNebcSLiSLgbdSLiSMlSOibeSLhSNlSNqSOibeSLiSNrSMaSOibcSLhSNtbfSLhS
   NtSLkSNpSNgbgSLhSNtSNhSOiSMiSNrbfSLhSNtSNvSMdSMibdSLkSNpSNgbfSLkSNpSNgSMiSNzbfSLjSNrSLwSKySNtbeS
   LjSNtSOiSMnbdSLlSOiSLtbdSLnSNrSMkbdSLnSOiSNdbeSLpSKySLjSNrbfSLpSNzSMbSOiSNgbeSLrSNqSNzSLkbdSLvSN
   zSMbbdSLvSNzSMibdSMaSOiSLtbcSMhSLrbcSMjSNrbcSMiSNzbcSMkSMobdSMoSMdSMibdSMpSKySMebfSMrSOiSLvSNzSM
   ibdSMrSOiSMebeSMqSOiSNsSNrbfSMuSKwSLtSMiSNrbdSMuSLjSNrbcSMuSLnbcSMtSNrbfSMvSKvSNpSMdSMjbeSMvSKxS
   OiSMibfSMwSMdSLrSLbSNrbdSMvSNpSNzbfSMySLjSLzSOiSNrbcSNaSLxbdSNaSMlSMsbdSMySNrSMebdSNaSNzSLtbdSNa
   SOiSLsbdSMzSOiSLzbeSNdSKySNzSMibdSNcSNrSMibcSNbSNzbdSNdSNzSMjbdSNbSOiSNrbdSNbSOiSNzbeSNeSKySLjSN
   tbdSNeSKySNrbdSNeSMdSMpbdSNeSNrSLjbfSNeSNzSLrSNnSNzbeSNfSLjSNtSNzbcSNfSNqbfSNfSNqSMqSOiSNrbcSNhS
   LgbeSNhSLgSMiSNzbeSNhSOiSMiSNrbdSNkSOiSMjbdSNkSOiSNrbdSNmSKwSNzbeSNqSMdSMiSNrbcSNqSNpbdSNrSMuSOi
   beSNrSOiSMwSNrbcSNsSNgbfSNsSNzSMiSLmSNzbdSNvSMdSMibcBwBQRxbcBxBQRxbcByBQRxbcBzBQRxbcCaBQRxbcCbBQ
   RxbcCcBQRxbcCdBQRxbcCeBQRxbcCfBQRxbdBxBwBQRxbdBxBxBQRxbdBxByBQRxbdBxBzBQRxbdBxCaBQRxbdBxCbBQRxbd
   BxCcBQRxbdBxCdBQRxbdBxCeBQRxbdBxCfBQRxbdByBwBQRxbdByBxBQRxbdByByBQRxbdByBzBQRxbdByCaBQRxbdEaEiDt
   bcDwDtbcDtEnbdDuDtEkbcEhEobcEiDvbcDwEfbdDwEfBybdDwEfBzbcEbEnbcBJTzBLDobcBMSbBGAmbcBHTvBORjbcBMQw
   BPEpbeBNLqBJZzBDYwBTXubcEiDtbcEgDtbcBKuDtbcEfDtbcEdDtbcEdDubcEfDubcDzDubdDvDtEebeEdDvDtEebcEiDyb
   cEgDybcBKuDybcBKuDzbcEfDzbcEdDzbcEaEsbdEdEaEsbdEfEaEsbdDzEaEsbdEmEaEsbcBKuEebcEfEebcDwEebcEdEebc
   DyEfbcEgEfbcBKuEfbcEfEfbcDvEfbcEdEfbdEfEfBybdDvEfBybcEfBybdEdEfBybdEfEfBzbdDvEfBzbcEfBzbdEdEfBzb
   dEfMXpElbeEfMXpElBybcEiDtbdEdEiDtbdEfEiDtbdDzEiDtbdEkDtDwbfEkDtDwMXpElbgEkDtDwMXpElBybcEiElbcEgE
   lbcBKuElbcEfElbcEiEobcEgEobcBKuEobcEfEobcEdEobcEfEobcEiEpbcEgEpbcBKuEpbcEfEpbcEdEpbcEfEpbcEdBLhb
   cEfBLhccDuEjbcDvDvbcDvDwbeDvMXpEdDzccDwDubcDzErbcEaDtbcEaEibcEbEgbcEdEdbcEdEfbcEdEmbcEeEfbcEeEgb
   dEeEhDzbcEeEqbcEfDubdEfEbEebdEfEhEebcEiEacdEiEiEfbcEiEkbcElEkbcElEobcEpDubdEoMXpEfbdDtMXpEfbcBxB
   MPhbcByBMPhbcBzBMPhbcCaBMPhbcCbBMPhbcCcBMPhbcCdBMPhbcCeBMPhbcCfBMPhbdBxBwBMPhbdBxBxBMPhbdBxByBMP
   hbdBxBzBMPhbdBxCaBMPhbdBxCbBMPhbdBxCcBMPhbdBxCdBMPhbdBxCeBMPhbdBxCfBMPhbdByBwBMPhbdByBxBMPhbdByB
   yBMPhbdByBzBMPhbdByCaBMPhbdByCbBMPhbdByCcBMPhbdByCdBMPhbdByCeBMPhbdByCfBMPhbdBzBwBMPhbdBzBxBMPhb
   dDzDtEeCXJlcDyDybcDyEbbcDyEebdDyDyEbbdDyDyEebcElEmbcElEmncCBsCBubcCBsCBdbcCBsCBjbcCCcCBubcCBsCBl
   gcCFpCEeccCGoCEhlcCGfCErbcCGfCEsbdCGfCEmCErbdCGfCEmCEsbcCFgCEhbcCFgCEibcCFgCEmbcCFhCEmbcCFiCEmbc
   CFjCEmbcCFkCEmbcCFlCEmbcCFmCEmccCFoCEmbcCFpCEmbcCFqCEmbcCFrCEmbcCFsCEmccCFuCEmccCFwCEmbcCFxCEmcc
   CFzCEmbcCGaCEmccCGcCEmbcCGdCEmbcCGeCEmbcCGfCEmbcCGgCEmbcCFlCEjbcCFhCEpbcCFrCEpbcCGaCEpbcCFgCFsFm
   cCOtCLoncCIoCIpbcCIoCIpbcCIoCPhbcCIoCPhbcCIoCJwbcCIoCJwbcCIoCOtbcCIoCOtbcCIoCOsbcCIoCOsbcCIoCOub
   cCIoCOubcCIoCPcbcCIoCPcbcCIoCPcbcCIoCJxbcCIoCJxbcCIoCJxfcCIoCIubcCIoCIvbcCIoCJtbcCIoCJxbcCIoCJyb
   cCIqCIubcCIqCIvbcCIqCIwbcCIqCJtbcCIqCJxbcCIqCJybcCIsCIubcCIsCIvbcCIsCIwbcCIsCJtbcCIsCJxbcCIsCJyb
   cCItCIubcCItCJtbcCItCJxbcCItCJybcCIuCIvbcCIuCJtbcCIvCIubcCIvCJtbcCIwCIubcCIwCIvbcCIwCJtbcCJbCIub
   cCJbCIvbcCJbCIwbcCJbCJtbcCJdCIvbcCJdCJtbcCJeCIubcCJeCIvbcCJeCIwbcCJeCJtbcCJfCIvbcCJfCJtbcCJgCJtb
   cCJhCIubcCJhCJtbcCJiCIubcCJiCJtbcCJpCIubcCJpCIvbcCJpCIwbcCJpCJtbcCJpCJxbcCJpCJybcCJqCIvbcCJqCJtb
   cCJqCJxbcCJqCJybcCJrCIpbcCJrCIubcCJrCIvbcCJrCIwbcCJrCJsbcCJrCJtbcCJrCJxbcCJrCJybcCJsCIubcCJsCIvb
   cCJsCIwbcCJsCJtbcCJsCJxbcCJsCJybcCJtCIubcCJtCIvbcCJtCIwbcCJtCJtbcCJtCJxbcCJtCJybcCJuCIubcCJuCIvb
   cCJuCIwbcCJuCJtbcCJuCJxbcCJuCJybcCJvCIubcCJvCJtbcCJvCJxbcCJvCJybcCJyCIubcCJyCIvbcCJyCIwbcCJyCJtb
   cCJyCJxbcCJyCJybcCIyCLkbcCIzCLkbcCJxCLkbdBgCKaCKfbdBgCKbCKfbdBgCKcCKfbdBgCKdCKfbdBgCKeCKfbdBgCKf
   CLkbcCIoCIzbcCIoCJabcCIoCJtbcCIoCJubcCIoCJxbcCIoCJybcCIqCIzbcCIqCJabcCIqCJtbcCIqCJubcCIqCJxbcCIq
   CJybcCIsCIzbcCIsCJabcCIsCJtbcCIsCJubcCIsCJxbcCIsCJybcCItCIzbcCItCJabcCItCJtbcCItCJubcCItCJxbcCIt
   CJybcCJpCJxbcCJpCJybcCJqCJxbcCJqCJybcCJrCIpbcCJrCJsbcCJrCJtbcCJrCJxbcCJrCJybcCJsCJtbcCJsCJxbcCJs
   CJybcCJtCIpbcCJtCJtbcCJuCIzbcCJuCJabcCJuCJtbcCJuCJubcCJuCJxbcCJuCJybcCJxCLkbcCJyCIzbcCJyCJabcCJy
   CJtbcCJyCJubcCJyCJxbcCJyCJybcCIoCIubcCIoCIvbcCIoCIwbcCIoCJtbcCIoCJvbcCIqCIubcCIqCIvbcCIqCIwbcCIq
   CJtbcCIqCJvbcCIsCIubcCIsCIvbcCIsCIwbcCIsCJtbcCIsCJvbcCItCJtbcCIuCIvbcCIuCJtbcCIvCIubcCIvCJtbcCIw
   CIubcCIwCJtbcCJbCIubcCJbCIvbcCJbCIwbcCJbCJtbcCJdCIvbcCJdCIwbcCJdCJtbcCJeCIubcCJeCIvbcCJeCIwbcCJe
   CJtbcCJfCIvbcCJgCJtbcCJhCIubcCJhCJtbcCJiCIubcCJiCJtbcCJpCIubcCJpCIvbcCJpCIwbcCJpCJtbcCJqCIvbcCJq
   CJtbcCJrCIubcCJrCIvbcCJrCIwbcCJrCJsbcCJrCJtbcCJsCIubcCJsCIvbcCJsCIwbcCJsCJtbcCJsCJvbcCJtCIubcCJt
   CIvbcCJtCIwbcCJtCJtbcCJuCIubcCJuCIvbcCJuCIwbcCJuCJtbcCJuCJvbcCJvCIubcCJvCJtbcCJvCLkbcCJyCIubcCJy
   CIvbcCJyCIwbcCJyCJtbcCJyCJvbcCIoCJtbcCIoCJvbcCIqCJtbcCIqCJvbcCIsCJtbcCIsCJvbcCItCJtbcCItCJvbcCJb
   CJtbcCJbCJvbcCJcCJtbcCJcCJvbcCJrCJsbcCJrCJtbcCJsCJtbcCJuCJtbcCJuCJvbcCJyCJtbcCJyCJvbdCJoCKcCKfbd
   CJoCKdCKfbdCJoCKeCKfbcCJfCJxbcCJfCJybcCJhCJxbcCJhCJybcCJiCJxbcCJiCJybcCJbCJxbcCJbCJybcCJcCJxbcCJ
   cCJybcCIvCJxbcCIvCJybcCIuCJxbcCIuCJybcCIwCJxbcCIwCJybcCJdCJxbcCJdCJybcCJeCJxbcCJeCJybcCJcCIubcCJ
   cCIvbcCJcCIwbcCJcCJtbcCJcCIzbcCJbCIzbcCJdCIzbcCJeCIzbcCJfCJxbcCJfCJybcCJhCJxbcCJhCJybcCJiCJxbcCJ
   iCJybcCJbCJxbcCJbCJybcCJcCJxbcCJcCJybcCIvCJxbcCIvCJybcCIuCJxbcCIuCJybcCIwCJxbcCIwCJybcCJdCJxbcCJ
   dCJybcCJeCJxbcCJeCJybcCJcCIubcCJcCIvbcCJcCIwbcCJcCJtbcCJcCIzbcCJbCIzbcCJdCIzbcCJeCIzbcCJcCIubcCJ
   cCIvbcCJcCIwbcCJcCJtbcCJbCJvbcCJcCJvbcCJfCJtbcCJbCIubcCJbCIvbcCJbCIwbcCJcCIubcCJcCIvbcCJcCIwbcCJ
   fCJtbcCJgCJtbcCIpCJzbcCIpCJztdCIsCIuCJtbdCIsCIvCIubdCIsCIvCIubdCIsCIvCJtbdCIsCIwCJtbdCIsCJtCIubd
   CIsCJtCIvbdCIsCJtCIwbdCIuCJtCIvbdCIuCJtCIvbdCIvCJtCJybdCIvCJtCJxbdCJbCIvCIubdCJbCIuCIvbdCJbCIuCJ
   xbdCJbCJtCIvbdCJbCJtCIvbdCJbCJtCIubdCJbCJtCJtbdCJbCJtCJtbdCJdCIvCIvbdCJdCIvCIvbdCJdCJtCJtbdCJcCI
   vCJtbdCJcCIvCJtbdCJcCIuCJybdCJcCJtCIwbdCJcCJtCIwbdCJcCJtCJtbdCJcCJtCJtbdCJeCIvCJxbdCJeCIwCJtbdCJ
   eCIwCJtbdCJfCJtCIvbdCJfCJtCIvbdCJfCJtCJtbdCJfCJtCJybdCJhCIuCJtbdCJhCJtCJtbdCJhCJtCJtbdCJhCJtCJxb
   dCJiCJtCJtbdCJiCJtCJybdCJiCJtCJxbdCJpCIwCJtbdCJpCIwCJtbdCJqCJtCIvbdCJqCJtCJtbdCJsCIvCJtbdCJsCIvC
   JybdCJsCIvCJxbdCJsCIuCIubdCJsCIuCIubdCJsCIwCJtbdCJsCIwCJtbdCJsCJtCIvbdCJsCJtCIvbdCJtCIvCIubdCJtC
   IvCJtbdCJtCIvCJybdCJtCIuCIvbdCJtCIuCJtbdCJtCIwCIubdCJtCIwCJtddCJtCIuCIwbdCJvCJtCIubdCJvCJtCJtbdC
   JuCIvCJtbdCJuCIvCJxbdCJuCIuCJtbdCJuCIuCJtbdCJuCIuCJxbdCJuCJtCJybdCJuCJtCJxbdCJyCJtCJtbdCJyCJtCJt
   bdCIqCIwCJybdCIsCIuCJybdCIsCIuCJxbdCIsCIwCJybdCIsCIwCJxbdCIsCJtCJybdCIsCJtCJxbdCIuCJtCJybdCIuCIv
   CJxbdCIuCJtCJxbdCJbCIwCJxbdCJdCIvCJybdCJcCIvCJybdCJeCIvCJybdCJsCIuCJybdCJsCJtCJybdCJyCIvCJybdCJy
   CIuCJybdCJyCJtCJybdCJtCJtCJybdCJqCJtCJybdCJuCIvCJybdCJqCJtCIvbdCJsCIvCJtbdCJhCJtCJybdCJrCJtCJybd
   CJuCIuCIvbdCJtCIwCJybdCJsCIuCJtbdCJrCJtCJtbdCJsCIuCJtbdCJuCIuCIvbdCIuCIvCJybdCIvCIuCJybdCJtCIuCJ
   ybdCJpCJtCJybdCIqCIvCJybdCJrCJtCJtbdCJhCIuCJtbdCJdCJtCJtbdCJbCIwCJybdCJuCIuCJyBpdCJdCJsCPebdCJqC
   JsCPebeCIpCJsCJsCJvbeCIpCJrCIqCIzbeCJtCIvCJtCIxbeCJdCJsCJhCJtbeCIzCJbCJwCJsbeCJhCJsCJyCJvbeCJwCJ
   bCJsCJtbdCJdCJsCJxbsCJdCJsCJxBgCIpCJsCJsCJvBgCJhCJsCJyCJvBgCJwCJbCJsCJtbiCIuCJsBgCIuCJsCIpCJsCJv
   beCIzCOyCIpCJseabababababababababababababababaCgcBgBDtbcBgBDtbcBgBDtbcBgBDtBkcBgCJzbcCJoCJzbcBgC
   KaccBgCKbccBgCKcbcCJoCKcbcBgCKdbcCJoCKdbcBgCKebcCJoCKebcBgCKfbcCJoCKfbcBgCKgbcCJoCKgEocCJsCIkbcC
   JsCIkbcCJsCIlbcCJsCIlbcCJsCInbcCJsCInbcCJsCIpbcCJsCIpdaGfaCpcBgBDsCTMjabababaHWdcGUFvGUGjbcGUFwG
   UGjbdGUFwGUGjGUGsbdGUFwGUGjGUGtbdGUFwGUGjGUGubdGUFwGUGjGUGvbdGUFwGUGjGUGwpabababababababaCncGUJp
   GUGjbcGUJqGUGjbdGUJpGUGjGUGsbdGUJqGUGjGUGsbdGUJpGUGjGUGtbdGUJqGUGjGUGtLVtcBwBsbcBxBsbcByBsbcBzBs
   bcCaBsbcCbBsbcCcBsbcCdBsbcCeBsbcCfBsgdBoDtBpbdBoDuBpbdBoDvBpbdBoDwBpbdBoDxBpbdBoDyBpbdBoDzBpbdBo
   EaBpbdBoEbBpbdBoEcBpbdBoEdBpbdBoEeBpbdBoEfBpbdBoEgBpbdBoEhBpbdBoEiBpbdBoEjBpbdBoEkBpbdBoElBpbdBo
   EmBpbdBoEnBpbdBoEoBpbdBoEpBpbdBoEqBpbdBoErBpbdBoEsBpbdSFkElSFldcDvDwbcEpEsBccEaEobcEfEobcElDwbcE
   lElbdEiEiEobcEpDvBbcEfDvbcEfDwbcEfEkBkcDwEcEicSJjSHnbcSLnSLnCldSFkBNBwSFlbdSFkBDOjSFlbdSFkBDTkSF
   lbdSFkBIRhSFlbdSFkBQRxSFlbdSFkBLGdSFlbdSFkBTAdSFlbdSFkBFJxSFlbdSFkBMJvSFlBSYYiababababababababab
   abababababababababababababababababababababababababababababababababababababababababababababababab
   abababababababababababababababababababababababababababababababababababababababababababababababab
   abababababababababababababababababababababababababababababababababababababababababababababababab
   abababababababababababababababababababababababababababababababababababababababababababababababab
   ababababababababababababababababababababababababababababababababababababababa")

/-- The characters that one stands for; none where it must not occur. -/
def image? (c : Char) : Option (List Char) :=
  match replaced.findSome? (·.image? c) with
  | some d => some [d]
  | none =>
      match expanded.lookup c.toNat with
      | some cs => some cs
      | none => if classOf admitted c = 0 then none else some [c]

def isKept (c : Char) : Bool := image? c = some [c]

end SearchClient.Unicode
