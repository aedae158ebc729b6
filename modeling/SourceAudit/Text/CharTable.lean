/-!
# Character tables

Tables of the code points beyond ASCII, for the classes and case mappings of Unicode 14.
-/

namespace SourceAudit.Text

structure CaseRun where
  first : Nat
  last : Nat
  step : Nat
  shift : Int

def alphanumericRuns : List Nat := [
  42,1,7,2,1,1,3,2,1,3,1,23,1,31,1,458,4,12,14,5,7,1,1,1,129,5,1,2,2,4,1,1,6,1,1,3,1,1,1,20,1,83,1,
  139,8,166,1,38,2,1,6,41,71,27,4,4,45,43,21,10,4,2,1,99,1,1,15,2,7,15,2,1,16,1,1,30,29,89,11,1,14,
  43,9,2,4,1,5,22,4,1,9,1,3,1,23,25,7,11,5,24,1,6,17,42,58,54,3,1,18,1,7,10,4,10,1,16,4,8,2,2,2,22,
  1,7,1,1,3,4,3,1,16,1,13,2,1,3,4,12,2,6,2,1,8,6,4,2,2,22,1,7,1,2,1,2,1,2,31,4,1,1,7,10,2,3,16,9,1,
  3,1,22,1,7,1,2,1,5,3,1,18,1,15,2,4,10,9,1,11,8,2,2,2,22,1,7,1,2,1,5,3,1,30,2,1,3,4,10,1,7,11,1,1,
  6,3,3,1,4,3,2,1,1,1,2,3,2,3,3,3,12,22,1,21,13,18,8,1,3,1,23,1,16,3,1,26,3,2,1,2,2,4,10,8,7,1,1,4,
  8,1,3,1,23,1,10,1,5,3,1,31,2,1,2,4,10,1,2,17,9,1,3,1,41,2,1,16,1,5,3,1,10,4,19,1,6,5,18,3,24,1,9,
  1,1,2,7,31,10,17,48,1,2,12,7,9,10,39,2,1,1,1,5,1,24,1,1,1,10,1,2,9,1,2,5,1,1,9,10,2,4,32,1,31,20,
  12,8,1,36,27,5,115,43,20,11,6,6,4,4,3,1,3,2,7,3,4,13,12,1,1,10,6,38,1,1,5,1,2,43,1,333,1,4,2,7,1,
  1,1,4,2,41,1,4,2,33,1,4,2,7,1,1,1,4,2,15,1,57,1,4,2,67,14,20,3,16,16,86,2,6,3,620,2,17,1,26,5,75,
  3,11,7,18,13,19,14,18,14,13,1,3,15,52,35,1,4,1,3,10,6,10,22,10,6,89,7,5,2,34,1,1,5,70,10,31,39,40,
  2,5,11,44,4,26,6,11,37,23,9,53,43,10,6,10,13,1,93,47,17,8,3,10,41,30,13,56,26,36,28,10,3,49,2,9,7,
  43,2,3,41,4,1,6,1,2,3,1,5,192,64,278,2,6,2,38,2,6,2,8,1,1,1,1,1,1,1,31,2,53,1,7,1,1,3,3,1,7,3,4,2,
  6,4,13,5,3,1,7,115,2,2,6,5,11,6,13,101,1,4,1,2,10,1,1,3,5,6,1,1,1,1,1,1,4,1,11,2,4,5,5,4,1,1,58,
  726,60,78,22,630,30,1132,229,6,4,3,2,9,1,2,38,1,1,5,1,2,56,7,1,16,23,9,7,1,7,1,7,1,7,1,7,1,7,1,7,
  1,7,80,1,469,3,25,9,7,5,2,5,4,86,6,3,1,90,1,4,5,43,1,94,3,4,10,32,48,16,32,10,30,8,1,15,32,10,39,
  15,320,6592,64,22157,67,46,2,269,3,28,20,47,16,31,2,80,39,9,2,103,2,64,5,2,1,1,1,5,24,16,1,3,1,4,
  1,23,13,6,10,52,14,50,28,10,24,6,3,1,1,2,1,38,10,23,25,29,7,47,28,11,6,5,1,25,1,41,23,3,1,8,4,10,
  6,23,3,1,3,50,1,1,3,2,2,5,2,1,1,1,24,3,2,11,7,3,12,6,2,6,2,6,9,7,1,7,1,43,1,14,6,115,13,10,6,
  11172,12,23,4,49,8452,366,2,106,38,7,12,5,5,1,1,10,1,13,1,5,1,1,1,2,1,2,1,108,33,363,18,64,2,54,
  40,12,116,5,1,135,19,10,7,26,6,26,11,89,3,6,2,6,2,6,2,3,35,12,1,26,1,19,1,2,1,15,2,14,34,123,12,
  45,12,57,17,2,244,29,3,49,16,27,4,36,9,30,5,38,10,30,2,36,4,8,1,5,42,158,2,10,6,36,4,36,4,40,8,52,
  12,11,1,15,1,7,1,2,1,11,1,15,1,7,1,2,67,311,9,22,10,8,24,6,1,42,1,9,69,6,2,1,1,44,1,2,3,1,2,23,2,
  31,2,38,8,9,48,19,1,2,5,33,4,26,70,56,4,20,2,47,15,4,1,3,1,29,10,9,23,31,1,32,32,8,1,28,6,5,16,54,
  10,22,2,27,5,26,23,7,80,73,55,51,13,51,7,42,12,10,294,31,1,42,6,2,78,40,8,22,11,4,27,18,46,28,20,
  23,12,53,26,30,1,2,2,1,13,45,32,25,7,10,9,36,15,10,4,1,2,1,8,35,3,1,12,48,14,4,11,11,1,1,4,20,11,
  18,1,25,84,7,1,1,1,4,1,15,1,10,7,47,17,10,11,8,2,2,2,22,1,7,1,2,1,5,3,1,18,1,12,5,158,53,18,4,5,
  10,5,3,30,48,20,2,1,1,8,10,166,47,41,4,36,48,20,1,11,10,38,43,13,1,7,10,54,27,21,12,4,7,185,44,
  116,83,12,8,2,1,2,8,1,2,1,24,15,1,1,1,14,10,70,8,2,39,16,1,1,1,28,1,10,40,7,1,21,1,11,46,19,1,18,
  73,263,9,1,37,17,1,15,29,5,30,112,7,1,2,1,38,21,1,9,10,6,6,1,2,1,32,14,1,7,10,310,19,189,1,15,21,
  43,922,102,111,17,196,2636,97,15,1071,4049,583,8633,569,7,31,1,10,6,79,1,10,6,30,18,48,16,4,12,10,
  1,7,1,21,5,19,688,87,105,75,5,1,66,13,64,2,1,1,28,6136,8,1238,42,9,8935,4,1,7,1,2,1,291,45,3,17,4,
  8,396,2308,107,5,13,3,9,7,10,5702,20,108,25,135,85,1,71,1,2,2,1,2,2,2,4,1,12,1,1,1,7,1,65,1,4,2,8,
  1,7,1,28,1,4,1,5,1,1,3,7,1,340,2,25,1,25,1,31,1,25,1,31,1,25,1,31,1,25,1,31,1,25,1,8,2,50,1792,31,
  481,45,10,7,2,10,4,1,321,30,18,44,4,10,1254,7,1,4,1,2,1,15,1,197,2,9,48,68,7,1,4,10,791,59,1,3,1,
  4,76,45,1,15,194,4,1,27,1,2,1,1,2,1,1,10,1,4,1,1,1,1,6,1,4,1,1,1,1,1,1,3,1,2,1,1,2,1,1,1,1,1,1,1,
  1,1,1,2,1,1,2,4,1,7,1,4,1,4,1,1,1,10,1,17,5,3,1,5,1,17,580,13,2787,10,1030,42720,32,4153,7,222,2,
  5762,14,7473,3103,542,1506,4939]

def printableRuns : List Nat := [
  33,12,1,714,2,6,4,7,1,1,1,20,1,397,1,38,2,50,2,3,1,55,8,27,4,6,17,22,1,192,1,48,2,59,2,101,14,59,
  2,49,2,15,1,28,2,1,1,11,5,31,9,74,1,161,1,8,2,2,2,22,1,7,1,1,3,4,2,9,2,2,2,4,8,1,4,2,1,5,2,25,2,3,
  1,6,4,2,2,22,1,7,1,2,1,2,1,2,2,1,1,5,4,2,2,3,3,1,7,4,1,1,7,17,10,3,1,9,1,3,1,22,1,7,1,2,1,5,2,10,
  1,3,1,3,2,1,15,4,2,12,7,7,1,3,1,8,2,2,2,22,1,7,1,2,1,5,2,9,2,2,2,3,7,3,4,2,1,5,2,18,10,2,1,6,3,3,
  1,4,3,2,1,1,1,2,3,2,3,3,3,12,4,5,3,3,1,4,2,1,6,1,14,21,5,13,1,3,1,23,1,16,2,9,1,3,1,4,7,2,1,3,2,1,
  2,4,2,10,7,22,1,3,1,23,1,10,1,5,2,9,1,3,1,4,7,2,6,2,1,4,2,10,1,2,13,13,1,3,1,51,1,3,1,6,4,16,2,26,
  1,3,1,18,3,24,1,9,1,1,2,7,3,1,4,6,1,1,1,8,6,10,2,3,12,58,4,29,37,2,1,1,1,5,1,24,1,1,1,23,2,5,1,1,
  1,6,2,10,2,4,32,72,1,36,4,39,1,36,1,15,1,13,37,198,1,1,5,1,2,377,1,4,2,7,1,1,1,4,2,41,1,4,2,33,1,
  4,2,7,1,1,1,4,2,15,1,57,1,4,2,67,2,32,3,26,6,86,2,6,2,640,1,28,3,89,7,22,9,24,9,20,12,13,1,3,1,2,
  12,94,2,10,6,10,6,14,1,11,6,89,7,43,5,70,10,31,1,12,4,12,4,1,3,42,2,5,11,44,4,26,6,11,3,62,2,65,1,
  29,2,11,6,10,6,14,2,31,49,77,3,47,1,116,8,60,3,15,3,60,7,43,2,11,8,43,5,534,2,6,2,38,2,6,2,8,1,1,
  1,1,1,1,1,31,2,53,1,15,1,14,2,6,1,19,2,3,1,9,17,24,8,47,17,2,2,27,1,13,3,33,15,33,15,140,4,663,25,
  11,21,1812,2,32,1,349,5,45,1,1,5,1,2,56,7,2,14,24,9,7,1,7,1,7,1,7,1,7,1,7,1,7,1,7,1,126,34,26,1,
  89,12,214,26,12,5,63,1,86,2,103,5,43,1,94,1,84,12,47,1,29293,3,55,9,348,20,184,8,203,5,2,1,1,1,5,
  24,59,3,10,6,56,8,70,8,12,6,116,11,30,3,78,1,11,4,33,1,55,9,14,2,10,2,103,24,28,10,6,2,6,2,6,9,7,
  1,7,1,60,4,126,2,10,6,11172,12,23,4,49,8452,366,2,106,38,7,12,5,5,26,1,5,1,1,1,2,1,2,1,125,16,445,
  2,54,7,1,32,42,6,51,1,19,1,4,4,5,1,135,4,190,3,6,2,6,2,6,2,3,3,7,1,7,13,2,2,12,1,26,1,19,1,2,1,15,
  2,14,34,123,5,3,4,45,3,88,1,13,3,1,47,46,130,29,3,49,15,28,4,36,9,30,5,43,5,30,1,37,4,14,42,158,2,
  10,6,36,4,36,4,40,8,52,11,12,1,15,1,7,1,2,1,11,1,15,1,7,1,2,67,311,9,22,10,8,24,6,1,42,1,9,69,6,2,
  1,1,44,1,2,3,1,2,23,1,72,8,9,48,19,1,2,5,33,3,27,5,1,64,56,4,20,2,50,1,2,5,8,1,3,1,29,2,3,4,10,7,
  9,7,64,32,39,4,12,9,54,3,29,2,27,5,26,7,4,12,7,80,73,55,51,13,51,7,46,8,10,294,31,1,42,1,3,2,2,78,
  40,8,42,22,26,38,28,20,23,9,78,4,36,9,62,1,5,13,25,7,10,6,53,1,18,8,39,9,96,1,20,11,18,1,44,65,7,
  1,1,1,4,1,15,1,11,6,59,5,10,6,4,1,8,2,2,2,22,1,7,1,2,1,5,1,10,2,2,2,3,2,1,6,1,5,7,2,7,3,5,139,92,
  1,5,30,72,8,10,166,54,2,38,34,69,11,10,6,13,19,58,6,10,54,27,2,15,4,23,185,60,100,83,12,8,2,1,2,8,
  1,2,1,30,1,2,2,12,9,10,70,8,2,46,2,11,27,72,8,83,13,73,263,9,1,45,1,14,10,29,3,32,2,22,1,14,73,7,
  1,2,1,44,3,1,1,2,1,9,8,10,6,6,1,2,1,37,1,2,1,6,7,10,310,25,183,1,15,50,13,923,102,111,1,5,11,196,
  2636,99,13,1071,4049,583,8633,569,7,31,1,10,4,81,1,10,6,30,2,6,10,70,10,10,1,7,1,21,5,19,688,91,
  101,75,4,57,7,17,64,5,11,2,14,6136,8,1238,42,9,8935,4,1,7,1,2,1,291,45,3,17,4,8,396,2308,107,5,13,
  3,9,7,10,2,4,4704,46,2,23,9,116,60,246,10,39,2,74,8,112,21,70,154,20,12,87,9,25,135,85,1,71,1,2,2,
  1,2,2,2,4,1,12,1,1,1,7,1,65,1,4,2,8,1,7,1,28,1,4,1,5,1,1,3,7,1,340,2,292,2,702,15,5,1,15,1104,31,
  225,7,1,17,2,7,1,2,1,5,213,45,3,14,2,10,4,2,320,31,17,58,5,1,1248,7,1,4,1,2,1,15,1,197,2,16,41,76,
  4,10,4,2,785,68,76,61,194,4,1,27,1,2,1,1,2,1,1,10,1,4,1,1,1,1,6,1,4,1,1,1,1,1,1,3,1,2,1,1,2,1,1,1,
  1,1,1,1,1,1,1,2,1,1,2,4,1,7,1,4,1,4,1,1,1,10,1,17,5,3,1,5,1,17,52,2,270,44,4,100,12,15,2,15,1,15,
  1,37,10,174,56,29,13,44,4,9,7,2,14,6,154,984,5,16,3,13,3,116,12,89,7,12,4,1,15,12,4,56,8,10,6,40,
  8,30,2,2,78,340,12,14,2,5,3,5,3,7,9,29,3,11,5,6,10,10,6,8,8,7,9,147,1,55,37,10,1030,42720,32,4153,
  7,222,2,5762,14,7473,3103,542,1506,4939,716213,240]

def decimalRanges : List (Nat × Nat) := [
  (1632,1641),(1776,1785),(1984,1993),(2406,2415),(2534,2543),(2662,2671),(2790,2799),(2918,2927),
  (3046,3055),(3174,3183),(3302,3311),(3430,3439),(3558,3567),(3664,3673),(3792,3801),(3872,3881),
  (4160,4169),(4240,4249),(6112,6121),(6160,6169),(6470,6479),(6608,6617),(6784,6793),(6800,6809),
  (6992,7001),(7088,7097),(7232,7241),(7248,7257),(42528,42537),(43216,43225),(43264,43273),
  (43472,43481),(43504,43513),(43600,43609),(44016,44025),(65296,65305),(66720,66729),(68912,68921),
  (69734,69743),(69872,69881),(69942,69951),(70096,70105),(70384,70393),(70736,70745),(70864,70873),
  (71248,71257),(71360,71369),(71472,71481),(71904,71913),(72016,72025),(72784,72793),(73040,73049),
  (73120,73129),(92768,92777),(92864,92873),(93008,93017),(120782,120831),(123200,123209),
  (123632,123641),(125264,125273),(130032,130041)]

def lowerRuns : List CaseRun := [
  ⟨192,214,1,32⟩,⟨216,222,1,32⟩,⟨256,302,2,1⟩,⟨306,310,2,1⟩,⟨313,327,2,1⟩,⟨330,374,2,1⟩,
  ⟨376,376,1,-121⟩,⟨377,381,2,1⟩,⟨385,385,1,210⟩,⟨386,388,2,1⟩,⟨390,390,1,206⟩,⟨391,391,1,1⟩,
  ⟨393,394,1,205⟩,⟨395,395,1,1⟩,⟨398,398,1,79⟩,⟨399,399,1,202⟩,⟨400,400,1,203⟩,⟨401,401,1,1⟩,
  ⟨403,403,1,205⟩,⟨404,404,1,207⟩,⟨406,406,1,211⟩,⟨407,407,1,209⟩,⟨408,408,1,1⟩,⟨412,412,1,211⟩,
  ⟨413,413,1,213⟩,⟨415,415,1,214⟩,⟨416,420,2,1⟩,⟨422,422,1,218⟩,⟨423,423,1,1⟩,⟨425,425,1,218⟩,
  ⟨428,428,1,1⟩,⟨430,430,1,218⟩,⟨431,431,1,1⟩,⟨433,434,1,217⟩,⟨435,437,2,1⟩,⟨439,439,1,219⟩,
  ⟨440,440,1,1⟩,⟨444,444,1,1⟩,⟨452,452,1,2⟩,⟨453,453,1,1⟩,⟨455,455,1,2⟩,⟨456,456,1,1⟩,⟨458,458,1,2⟩,
  ⟨459,475,2,1⟩,⟨478,494,2,1⟩,⟨497,497,1,2⟩,⟨498,500,2,1⟩,⟨502,502,1,-97⟩,⟨503,503,1,-56⟩,
  ⟨504,542,2,1⟩,⟨544,544,1,-130⟩,⟨546,562,2,1⟩,⟨570,570,1,10795⟩,⟨571,571,1,1⟩,⟨573,573,1,-163⟩,
  ⟨574,574,1,10792⟩,⟨577,577,1,1⟩,⟨579,579,1,-195⟩,⟨580,580,1,69⟩,⟨581,581,1,71⟩,⟨582,590,2,1⟩,
  ⟨880,882,2,1⟩,⟨886,886,1,1⟩,⟨895,895,1,116⟩,⟨902,902,1,38⟩,⟨904,906,1,37⟩,⟨908,908,1,64⟩,
  ⟨910,911,1,63⟩,⟨913,929,1,32⟩,⟨931,939,1,32⟩,⟨975,975,1,8⟩,⟨984,1006,2,1⟩,⟨1012,1012,1,-60⟩,
  ⟨1015,1015,1,1⟩,⟨1017,1017,1,-7⟩,⟨1018,1018,1,1⟩,⟨1021,1023,1,-130⟩,⟨1024,1039,1,80⟩,
  ⟨1040,1071,1,32⟩,⟨1120,1152,2,1⟩,⟨1162,1214,2,1⟩,⟨1216,1216,1,15⟩,⟨1217,1229,2,1⟩,⟨1232,1326,2,1⟩,
  ⟨1329,1366,1,48⟩,⟨4256,4293,1,7264⟩,⟨4295,4295,1,7264⟩,⟨4301,4301,1,7264⟩,⟨5024,5103,1,38864⟩,
  ⟨5104,5109,1,8⟩,⟨7312,7354,1,-3008⟩,⟨7357,7359,1,-3008⟩,⟨7680,7828,2,1⟩,⟨7838,7838,1,-7615⟩,
  ⟨7840,7934,2,1⟩,⟨7944,7951,1,-8⟩,⟨7960,7965,1,-8⟩,⟨7976,7983,1,-8⟩,⟨7992,7999,1,-8⟩,
  ⟨8008,8013,1,-8⟩,⟨8025,8031,2,-8⟩,⟨8040,8047,1,-8⟩,⟨8072,8079,1,-8⟩,⟨8088,8095,1,-8⟩,
  ⟨8104,8111,1,-8⟩,⟨8120,8121,1,-8⟩,⟨8122,8123,1,-74⟩,⟨8124,8124,1,-9⟩,⟨8136,8139,1,-86⟩,
  ⟨8140,8140,1,-9⟩,⟨8152,8153,1,-8⟩,⟨8154,8155,1,-100⟩,⟨8168,8169,1,-8⟩,⟨8170,8171,1,-112⟩,
  ⟨8172,8172,1,-7⟩,⟨8184,8185,1,-128⟩,⟨8186,8187,1,-126⟩,⟨8188,8188,1,-9⟩,⟨8486,8486,1,-7517⟩,
  ⟨8490,8490,1,-8383⟩,⟨8491,8491,1,-8262⟩,⟨8498,8498,1,28⟩,⟨8544,8559,1,16⟩,⟨8579,8579,1,1⟩,
  ⟨9398,9423,1,26⟩,⟨11264,11311,1,48⟩,⟨11360,11360,1,1⟩,⟨11362,11362,1,-10743⟩,
  ⟨11363,11363,1,-3814⟩,⟨11364,11364,1,-10727⟩,⟨11367,11371,2,1⟩,⟨11373,11373,1,-10780⟩,
  ⟨11374,11374,1,-10749⟩,⟨11375,11375,1,-10783⟩,⟨11376,11376,1,-10782⟩,⟨11378,11378,1,1⟩,
  ⟨11381,11381,1,1⟩,⟨11390,11391,1,-10815⟩,⟨11392,11490,2,1⟩,⟨11499,11501,2,1⟩,⟨11506,11506,1,1⟩,
  ⟨42560,42604,2,1⟩,⟨42624,42650,2,1⟩,⟨42786,42798,2,1⟩,⟨42802,42862,2,1⟩,⟨42873,42875,2,1⟩,
  ⟨42877,42877,1,-35332⟩,⟨42878,42886,2,1⟩,⟨42891,42891,1,1⟩,⟨42893,42893,1,-42280⟩,
  ⟨42896,42898,2,1⟩,⟨42902,42920,2,1⟩,⟨42922,42922,1,-42308⟩,⟨42923,42923,1,-42319⟩,
  ⟨42924,42924,1,-42315⟩,⟨42925,42925,1,-42305⟩,⟨42926,42926,1,-42308⟩,⟨42928,42928,1,-42258⟩,
  ⟨42929,42929,1,-42282⟩,⟨42930,42930,1,-42261⟩,⟨42931,42931,1,928⟩,⟨42932,42946,2,1⟩,
  ⟨42948,42948,1,-48⟩,⟨42949,42949,1,-42307⟩,⟨42950,42950,1,-35384⟩,⟨42951,42953,2,1⟩,
  ⟨42960,42960,1,1⟩,⟨42966,42968,2,1⟩,⟨42997,42997,1,1⟩,⟨65313,65338,1,32⟩,⟨66560,66599,1,40⟩,
  ⟨66736,66771,1,40⟩,⟨66928,66938,1,39⟩,⟨66940,66954,1,39⟩,⟨66956,66962,1,39⟩,⟨66964,66965,1,39⟩,
  ⟨68736,68786,1,64⟩,⟨71840,71871,1,32⟩,⟨93760,93791,1,32⟩,⟨125184,125217,1,34⟩]

def lowerSpecials : List (Nat × List Nat) := [(304,[105,775])]

def upperRuns : List CaseRun := [
  ⟨181,181,1,743⟩,⟨224,246,1,-32⟩,⟨248,254,1,-32⟩,⟨255,255,1,121⟩,⟨257,303,2,-1⟩,⟨305,305,1,-232⟩,
  ⟨307,311,2,-1⟩,⟨314,328,2,-1⟩,⟨331,375,2,-1⟩,⟨378,382,2,-1⟩,⟨383,383,1,-300⟩,⟨384,384,1,195⟩,
  ⟨387,389,2,-1⟩,⟨392,392,1,-1⟩,⟨396,396,1,-1⟩,⟨402,402,1,-1⟩,⟨405,405,1,97⟩,⟨409,409,1,-1⟩,
  ⟨410,410,1,163⟩,⟨414,414,1,130⟩,⟨417,421,2,-1⟩,⟨424,424,1,-1⟩,⟨429,429,1,-1⟩,⟨432,432,1,-1⟩,
  ⟨436,438,2,-1⟩,⟨441,441,1,-1⟩,⟨445,445,1,-1⟩,⟨447,447,1,56⟩,⟨453,453,1,-1⟩,⟨454,454,1,-2⟩,
  ⟨456,456,1,-1⟩,⟨457,457,1,-2⟩,⟨459,459,1,-1⟩,⟨460,460,1,-2⟩,⟨462,476,2,-1⟩,⟨477,477,1,-79⟩,
  ⟨479,495,2,-1⟩,⟨498,498,1,-1⟩,⟨499,499,1,-2⟩,⟨501,501,1,-1⟩,⟨505,543,2,-1⟩,⟨547,563,2,-1⟩,
  ⟨572,572,1,-1⟩,⟨575,576,1,10815⟩,⟨578,578,1,-1⟩,⟨583,591,2,-1⟩,⟨592,592,1,10783⟩,
  ⟨593,593,1,10780⟩,⟨594,594,1,10782⟩,⟨595,595,1,-210⟩,⟨596,596,1,-206⟩,⟨598,599,1,-205⟩,
  ⟨601,601,1,-202⟩,⟨603,603,1,-203⟩,⟨604,604,1,42319⟩,⟨608,608,1,-205⟩,⟨609,609,1,42315⟩,
  ⟨611,611,1,-207⟩,⟨613,613,1,42280⟩,⟨614,614,1,42308⟩,⟨616,616,1,-209⟩,⟨617,617,1,-211⟩,
  ⟨618,618,1,42308⟩,⟨619,619,1,10743⟩,⟨620,620,1,42305⟩,⟨623,623,1,-211⟩,⟨625,625,1,10749⟩,
  ⟨626,626,1,-213⟩,⟨629,629,1,-214⟩,⟨637,637,1,10727⟩,⟨640,640,1,-218⟩,⟨642,642,1,42307⟩,
  ⟨643,643,1,-218⟩,⟨647,647,1,42282⟩,⟨648,648,1,-218⟩,⟨649,649,1,-69⟩,⟨650,651,1,-217⟩,
  ⟨652,652,1,-71⟩,⟨658,658,1,-219⟩,⟨669,669,1,42261⟩,⟨670,670,1,42258⟩,⟨837,837,1,84⟩,
  ⟨881,883,2,-1⟩,⟨887,887,1,-1⟩,⟨891,893,1,130⟩,⟨940,940,1,-38⟩,⟨941,943,1,-37⟩,⟨945,961,1,-32⟩,
  ⟨962,962,1,-31⟩,⟨963,971,1,-32⟩,⟨972,972,1,-64⟩,⟨973,974,1,-63⟩,⟨976,976,1,-62⟩,⟨977,977,1,-57⟩,
  ⟨981,981,1,-47⟩,⟨982,982,1,-54⟩,⟨983,983,1,-8⟩,⟨985,1007,2,-1⟩,⟨1008,1008,1,-86⟩,
  ⟨1009,1009,1,-80⟩,⟨1010,1010,1,7⟩,⟨1011,1011,1,-116⟩,⟨1013,1013,1,-96⟩,⟨1016,1016,1,-1⟩,
  ⟨1019,1019,1,-1⟩,⟨1072,1103,1,-32⟩,⟨1104,1119,1,-80⟩,⟨1121,1153,2,-1⟩,⟨1163,1215,2,-1⟩,
  ⟨1218,1230,2,-1⟩,⟨1231,1231,1,-15⟩,⟨1233,1327,2,-1⟩,⟨1377,1414,1,-48⟩,⟨4304,4346,1,3008⟩,
  ⟨4349,4351,1,3008⟩,⟨5112,5117,1,-8⟩,⟨7296,7296,1,-6254⟩,⟨7297,7297,1,-6253⟩,⟨7298,7298,1,-6244⟩,
  ⟨7299,7300,1,-6242⟩,⟨7301,7301,1,-6243⟩,⟨7302,7302,1,-6236⟩,⟨7303,7303,1,-6181⟩,
  ⟨7304,7304,1,35266⟩,⟨7545,7545,1,35332⟩,⟨7549,7549,1,3814⟩,⟨7566,7566,1,35384⟩,⟨7681,7829,2,-1⟩,
  ⟨7835,7835,1,-59⟩,⟨7841,7935,2,-1⟩,⟨7936,7943,1,8⟩,⟨7952,7957,1,8⟩,⟨7968,7975,1,8⟩,
  ⟨7984,7991,1,8⟩,⟨8000,8005,1,8⟩,⟨8017,8023,2,8⟩,⟨8032,8039,1,8⟩,⟨8048,8049,1,74⟩,⟨8050,8053,1,86⟩,
  ⟨8054,8055,1,100⟩,⟨8056,8057,1,128⟩,⟨8058,8059,1,112⟩,⟨8060,8061,1,126⟩,⟨8112,8113,1,8⟩,
  ⟨8126,8126,1,-7205⟩,⟨8144,8145,1,8⟩,⟨8160,8161,1,8⟩,⟨8165,8165,1,7⟩,⟨8526,8526,1,-28⟩,
  ⟨8560,8575,1,-16⟩,⟨8580,8580,1,-1⟩,⟨9424,9449,1,-26⟩,⟨11312,11359,1,-48⟩,⟨11361,11361,1,-1⟩,
  ⟨11365,11365,1,-10795⟩,⟨11366,11366,1,-10792⟩,⟨11368,11372,2,-1⟩,⟨11379,11379,1,-1⟩,
  ⟨11382,11382,1,-1⟩,⟨11393,11491,2,-1⟩,⟨11500,11502,2,-1⟩,⟨11507,11507,1,-1⟩,⟨11520,11557,1,-7264⟩,
  ⟨11559,11559,1,-7264⟩,⟨11565,11565,1,-7264⟩,⟨42561,42605,2,-1⟩,⟨42625,42651,2,-1⟩,
  ⟨42787,42799,2,-1⟩,⟨42803,42863,2,-1⟩,⟨42874,42876,2,-1⟩,⟨42879,42887,2,-1⟩,⟨42892,42892,1,-1⟩,
  ⟨42897,42899,2,-1⟩,⟨42900,42900,1,48⟩,⟨42903,42921,2,-1⟩,⟨42933,42947,2,-1⟩,⟨42952,42954,2,-1⟩,
  ⟨42961,42961,1,-1⟩,⟨42967,42969,2,-1⟩,⟨42998,42998,1,-1⟩,⟨43859,43859,1,-928⟩,
  ⟨43888,43967,1,-38864⟩,⟨65345,65370,1,-32⟩,⟨66600,66639,1,-40⟩,⟨66776,66811,1,-40⟩,
  ⟨66967,66977,1,-39⟩,⟨66979,66993,1,-39⟩,⟨66995,67001,1,-39⟩,⟨67003,67004,1,-39⟩,
  ⟨68800,68850,1,-64⟩,⟨71872,71903,1,-32⟩,⟨93792,93823,1,-32⟩,⟨125218,125251,1,-34⟩]

def upperSpecials : List (Nat × List Nat) := [
  (223,[83,83]),(329,[700,78]),(496,[74,780]),(912,[921,776,769]),(944,[933,776,769]),
  (1415,[1333,1362]),(7830,[72,817]),(7831,[84,776]),(7832,[87,778]),(7833,[89,778]),
  (7834,[65,702]),(8016,[933,787]),(8018,[933,787,768]),(8020,[933,787,769]),(8022,[933,787,834]),
  (8064,[7944,921]),(8065,[7945,921]),(8066,[7946,921]),(8067,[7947,921]),(8068,[7948,921]),
  (8069,[7949,921]),(8070,[7950,921]),(8071,[7951,921]),(8072,[7944,921]),(8073,[7945,921]),
  (8074,[7946,921]),(8075,[7947,921]),(8076,[7948,921]),(8077,[7949,921]),(8078,[7950,921]),
  (8079,[7951,921]),(8080,[7976,921]),(8081,[7977,921]),(8082,[7978,921]),(8083,[7979,921]),
  (8084,[7980,921]),(8085,[7981,921]),(8086,[7982,921]),(8087,[7983,921]),(8088,[7976,921]),
  (8089,[7977,921]),(8090,[7978,921]),(8091,[7979,921]),(8092,[7980,921]),(8093,[7981,921]),
  (8094,[7982,921]),(8095,[7983,921]),(8096,[8040,921]),(8097,[8041,921]),(8098,[8042,921]),
  (8099,[8043,921]),(8100,[8044,921]),(8101,[8045,921]),(8102,[8046,921]),(8103,[8047,921]),
  (8104,[8040,921]),(8105,[8041,921]),(8106,[8042,921]),(8107,[8043,921]),(8108,[8044,921]),
  (8109,[8045,921]),(8110,[8046,921]),(8111,[8047,921]),(8114,[8122,921]),(8115,[913,921]),
  (8116,[902,921]),(8118,[913,834]),(8119,[913,834,921]),(8124,[913,921]),(8130,[8138,921]),
  (8131,[919,921]),(8132,[905,921]),(8134,[919,834]),(8135,[919,834,921]),(8140,[919,921]),
  (8146,[921,776,768]),(8147,[921,776,769]),(8150,[921,834]),(8151,[921,776,834]),
  (8162,[933,776,768]),(8163,[933,776,769]),(8164,[929,787]),(8166,[933,834]),(8167,[933,776,834]),
  (8178,[8186,921]),(8179,[937,921]),(8180,[911,921]),(8182,[937,834]),(8183,[937,834,921]),
  (8188,[937,921]),(64256,[70,70]),(64257,[70,73]),(64258,[70,76]),(64259,[70,70,73]),
  (64260,[70,70,76]),(64261,[83,84]),(64262,[83,84]),(64275,[1348,1350]),(64276,[1348,1333]),
  (64277,[1348,1339]),(64278,[1358,1350]),(64279,[1348,1341])]

def titleRuns : List CaseRun := [
  ⟨452,452,1,1⟩,⟨453,453,1,0⟩,⟨454,454,1,-1⟩,⟨455,455,1,1⟩,⟨456,456,1,0⟩,⟨457,457,1,-1⟩,
  ⟨458,458,1,1⟩,⟨459,459,1,0⟩,⟨460,460,1,-1⟩,⟨497,497,1,1⟩,⟨498,498,1,0⟩,⟨499,499,1,-1⟩,
  ⟨4304,4346,1,0⟩,⟨4349,4351,1,0⟩,⟨8064,8071,1,8⟩,⟨8072,8079,1,0⟩,⟨8080,8087,1,8⟩,⟨8088,8095,1,0⟩,
  ⟨8096,8103,1,8⟩,⟨8104,8111,1,0⟩,⟨8115,8115,1,9⟩,⟨8124,8124,1,0⟩,⟨8131,8131,1,9⟩,⟨8140,8140,1,0⟩,
  ⟨8179,8179,1,9⟩,⟨8188,8188,1,0⟩]

def titleSpecials : List (Nat × List Nat) := [
  (223,[83,115]),(1415,[1333,1410]),(8114,[8122,837]),(8116,[902,837]),(8119,[913,834,837]),
  (8130,[8138,837]),(8132,[905,837]),(8135,[919,834,837]),(8178,[8186,837]),(8180,[911,837]),
  (8183,[937,834,837]),(64256,[70,102]),(64257,[70,105]),(64258,[70,108]),(64259,[70,102,105]),
  (64260,[70,102,108]),(64261,[83,116]),(64262,[83,116]),(64275,[1348,1398]),(64276,[1348,1381]),
  (64277,[1348,1387]),(64278,[1358,1398]),(64279,[1348,1389])]

end SourceAudit.Text
