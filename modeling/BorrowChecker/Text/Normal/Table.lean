import BorrowChecker.Text.Ranges

/-!
Decompositions and combining classes of code points, after version 15.0 of the Unicode character
database.
-/

namespace BorrowChecker

namespace CodePoint

def numbers (table : String) : List Nat :=
  (cutAt Char.isWhitespace table.toList).filterMap fun entry =>
    if entry.isEmpty then none else some (ofHex entry)

def triples : List Nat → List (Nat × Nat × Nat)
  | a :: b :: c :: rest => (a, b, c) :: triples rest
  | _ => []

/-- Code points that decompose into two and are composed from them again. -/
def compositions : List (Nat × Nat × Nat) := triples (numbers "
C0 41 300  C1 41 301  C2 41 302  C3 41 303  C4 41 308  C5 41 30A  C7 43 327  C8 45 300
C9 45 301  CA 45 302  CB 45 308  CC 49 300  CD 49 301  CE 49 302  CF 49 308  D1 4E 303
D2 4F 300  D3 4F 301  D4 4F 302  D5 4F 303  D6 4F 308  D9 55 300  DA 55 301  DB 55 302
DC 55 308  DD 59 301  E0 61 300  E1 61 301  E2 61 302  E3 61 303  E4 61 308  E5 61 30A
E7 63 327  E8 65 300  E9 65 301  EA 65 302  EB 65 308  EC 69 300  ED 69 301  EE 69 302
EF 69 308  F1 6E 303  F2 6F 300  F3 6F 301  F4 6F 302  F5 6F 303  F6 6F 308  F9 75 300
FA 75 301  FB 75 302  FC 75 308  FD 79 301  FF 79 308  100 41 304  101 61 304  102 41 306
103 61 306  104 41 328  105 61 328  106 43 301  107 63 301  108 43 302  109 63 302  10A 43 307
10B 63 307  10C 43 30C  10D 63 30C  10E 44 30C  10F 64 30C  112 45 304  113 65 304  114 45 306
115 65 306  116 45 307  117 65 307  118 45 328  119 65 328  11A 45 30C  11B 65 30C  11C 47 302
11D 67 302  11E 47 306  11F 67 306  120 47 307  121 67 307  122 47 327  123 67 327  124 48 302
125 68 302  128 49 303  129 69 303  12A 49 304  12B 69 304  12C 49 306  12D 69 306  12E 49 328
12F 69 328  130 49 307  134 4A 302  135 6A 302  136 4B 327  137 6B 327  139 4C 301  13A 6C 301
13B 4C 327  13C 6C 327  13D 4C 30C  13E 6C 30C  143 4E 301  144 6E 301  145 4E 327  146 6E 327
147 4E 30C  148 6E 30C  14C 4F 304  14D 6F 304  14E 4F 306  14F 6F 306  150 4F 30B  151 6F 30B
154 52 301  155 72 301  156 52 327  157 72 327  158 52 30C  159 72 30C  15A 53 301  15B 73 301
15C 53 302  15D 73 302  15E 53 327  15F 73 327  160 53 30C  161 73 30C  162 54 327  163 74 327
164 54 30C  165 74 30C  168 55 303  169 75 303  16A 55 304  16B 75 304  16C 55 306  16D 75 306
16E 55 30A  16F 75 30A  170 55 30B  171 75 30B  172 55 328  173 75 328  174 57 302  175 77 302
176 59 302  177 79 302  178 59 308  179 5A 301  17A 7A 301  17B 5A 307  17C 7A 307  17D 5A 30C
17E 7A 30C  1A0 4F 31B  1A1 6F 31B  1AF 55 31B  1B0 75 31B  1CD 41 30C  1CE 61 30C  1CF 49 30C
1D0 69 30C  1D1 4F 30C  1D2 6F 30C  1D3 55 30C  1D4 75 30C  1D5 DC 304  1D6 FC 304  1D7 DC 301
1D8 FC 301  1D9 DC 30C  1DA FC 30C  1DB DC 300  1DC FC 300  1DE C4 304  1DF E4 304  1E0 226 304
1E1 227 304  1E2 C6 304  1E3 E6 304  1E6 47 30C  1E7 67 30C  1E8 4B 30C  1E9 6B 30C  1EA 4F 328
1EB 6F 328  1EC 1EA 304  1ED 1EB 304  1EE 1B7 30C  1EF 292 30C  1F0 6A 30C  1F4 47 301
1F5 67 301  1F8 4E 300  1F9 6E 300  1FA C5 301  1FB E5 301  1FC C6 301  1FD E6 301  1FE D8 301
1FF F8 301  200 41 30F  201 61 30F  202 41 311  203 61 311  204 45 30F  205 65 30F  206 45 311
207 65 311  208 49 30F  209 69 30F  20A 49 311  20B 69 311  20C 4F 30F  20D 6F 30F  20E 4F 311
20F 6F 311  210 52 30F  211 72 30F  212 52 311  213 72 311  214 55 30F  215 75 30F  216 55 311
217 75 311  218 53 326  219 73 326  21A 54 326  21B 74 326  21E 48 30C  21F 68 30C  226 41 307
227 61 307  228 45 327  229 65 327  22A D6 304  22B F6 304  22C D5 304  22D F5 304  22E 4F 307
22F 6F 307  230 22E 304  231 22F 304  232 59 304  233 79 304  385 A8 301  386 391 301
388 395 301  389 397 301  38A 399 301  38C 39F 301  38E 3A5 301  38F 3A9 301  390 3CA 301
3AA 399 308  3AB 3A5 308  3AC 3B1 301  3AD 3B5 301  3AE 3B7 301  3AF 3B9 301  3B0 3CB 301
3CA 3B9 308  3CB 3C5 308  3CC 3BF 301  3CD 3C5 301  3CE 3C9 301  3D3 3D2 301  3D4 3D2 308
400 415 300  401 415 308  403 413 301  407 406 308  40C 41A 301  40D 418 300  40E 423 306
419 418 306  439 438 306  450 435 300  451 435 308  453 433 301  457 456 308  45C 43A 301
45D 438 300  45E 443 306  476 474 30F  477 475 30F  4C1 416 306  4C2 436 306  4D0 410 306
4D1 430 306  4D2 410 308  4D3 430 308  4D6 415 306  4D7 435 306  4DA 4D8 308  4DB 4D9 308
4DC 416 308  4DD 436 308  4DE 417 308  4DF 437 308  4E2 418 304  4E3 438 304  4E4 418 308
4E5 438 308  4E6 41E 308  4E7 43E 308  4EA 4E8 308  4EB 4E9 308  4EC 42D 308  4ED 44D 308
4EE 423 304  4EF 443 304  4F0 423 308  4F1 443 308  4F2 423 30B  4F3 443 30B  4F4 427 308
4F5 447 308  4F8 42B 308  4F9 44B 308  622 627 653  623 627 654  624 648 654  625 627 655
626 64A 654  6C0 6D5 654  6C2 6C1 654  6D3 6D2 654  929 928 93C  931 930 93C  934 933 93C
9CB 9C7 9BE  9CC 9C7 9D7  B48 B47 B56  B4B B47 B3E  B4C B47 B57  B94 B92 BD7  BCA BC6 BBE
BCB BC7 BBE  BCC BC6 BD7  C48 C46 C56  CC0 CBF CD5  CC7 CC6 CD5  CC8 CC6 CD6  CCA CC6 CC2
CCB CCA CD5  D4A D46 D3E  D4B D47 D3E  D4C D46 D57  DDA DD9 DCA  DDC DD9 DCF  DDD DDC DCA
DDE DD9 DDF  1026 1025 102E  1B06 1B05 1B35  1B08 1B07 1B35  1B0A 1B09 1B35  1B0C 1B0B 1B35
1B0E 1B0D 1B35  1B12 1B11 1B35  1B3B 1B3A 1B35  1B3D 1B3C 1B35  1B40 1B3E 1B35  1B41 1B3F 1B35
1B43 1B42 1B35  1E00 41 325  1E01 61 325  1E02 42 307  1E03 62 307  1E04 42 323  1E05 62 323
1E06 42 331  1E07 62 331  1E08 C7 301  1E09 E7 301  1E0A 44 307  1E0B 64 307  1E0C 44 323
1E0D 64 323  1E0E 44 331  1E0F 64 331  1E10 44 327  1E11 64 327  1E12 44 32D  1E13 64 32D
1E14 112 300  1E15 113 300  1E16 112 301  1E17 113 301  1E18 45 32D  1E19 65 32D  1E1A 45 330
1E1B 65 330  1E1C 228 306  1E1D 229 306  1E1E 46 307  1E1F 66 307  1E20 47 304  1E21 67 304
1E22 48 307  1E23 68 307  1E24 48 323  1E25 68 323  1E26 48 308  1E27 68 308  1E28 48 327
1E29 68 327  1E2A 48 32E  1E2B 68 32E  1E2C 49 330  1E2D 69 330  1E2E CF 301  1E2F EF 301
1E30 4B 301  1E31 6B 301  1E32 4B 323  1E33 6B 323  1E34 4B 331  1E35 6B 331  1E36 4C 323
1E37 6C 323  1E38 1E36 304  1E39 1E37 304  1E3A 4C 331  1E3B 6C 331  1E3C 4C 32D  1E3D 6C 32D
1E3E 4D 301  1E3F 6D 301  1E40 4D 307  1E41 6D 307  1E42 4D 323  1E43 6D 323  1E44 4E 307
1E45 6E 307  1E46 4E 323  1E47 6E 323  1E48 4E 331  1E49 6E 331  1E4A 4E 32D  1E4B 6E 32D
1E4C D5 301  1E4D F5 301  1E4E D5 308  1E4F F5 308  1E50 14C 300  1E51 14D 300  1E52 14C 301
1E53 14D 301  1E54 50 301  1E55 70 301  1E56 50 307  1E57 70 307  1E58 52 307  1E59 72 307
1E5A 52 323  1E5B 72 323  1E5C 1E5A 304  1E5D 1E5B 304  1E5E 52 331  1E5F 72 331  1E60 53 307
1E61 73 307  1E62 53 323  1E63 73 323  1E64 15A 307  1E65 15B 307  1E66 160 307  1E67 161 307
1E68 1E62 307  1E69 1E63 307  1E6A 54 307  1E6B 74 307  1E6C 54 323  1E6D 74 323  1E6E 54 331
1E6F 74 331  1E70 54 32D  1E71 74 32D  1E72 55 324  1E73 75 324  1E74 55 330  1E75 75 330
1E76 55 32D  1E77 75 32D  1E78 168 301  1E79 169 301  1E7A 16A 308  1E7B 16B 308  1E7C 56 303
1E7D 76 303  1E7E 56 323  1E7F 76 323  1E80 57 300  1E81 77 300  1E82 57 301  1E83 77 301
1E84 57 308  1E85 77 308  1E86 57 307  1E87 77 307  1E88 57 323  1E89 77 323  1E8A 58 307
1E8B 78 307  1E8C 58 308  1E8D 78 308  1E8E 59 307  1E8F 79 307  1E90 5A 302  1E91 7A 302
1E92 5A 323  1E93 7A 323  1E94 5A 331  1E95 7A 331  1E96 68 331  1E97 74 308  1E98 77 30A
1E99 79 30A  1E9B 17F 307  1EA0 41 323  1EA1 61 323  1EA2 41 309  1EA3 61 309  1EA4 C2 301
1EA5 E2 301  1EA6 C2 300  1EA7 E2 300  1EA8 C2 309  1EA9 E2 309  1EAA C2 303  1EAB E2 303
1EAC 1EA0 302  1EAD 1EA1 302  1EAE 102 301  1EAF 103 301  1EB0 102 300  1EB1 103 300
1EB2 102 309  1EB3 103 309  1EB4 102 303  1EB5 103 303  1EB6 1EA0 306  1EB7 1EA1 306
1EB8 45 323  1EB9 65 323  1EBA 45 309  1EBB 65 309  1EBC 45 303  1EBD 65 303  1EBE CA 301
1EBF EA 301  1EC0 CA 300  1EC1 EA 300  1EC2 CA 309  1EC3 EA 309  1EC4 CA 303  1EC5 EA 303
1EC6 1EB8 302  1EC7 1EB9 302  1EC8 49 309  1EC9 69 309  1ECA 49 323  1ECB 69 323  1ECC 4F 323
1ECD 6F 323  1ECE 4F 309  1ECF 6F 309  1ED0 D4 301  1ED1 F4 301  1ED2 D4 300  1ED3 F4 300
1ED4 D4 309  1ED5 F4 309  1ED6 D4 303  1ED7 F4 303  1ED8 1ECC 302  1ED9 1ECD 302  1EDA 1A0 301
1EDB 1A1 301  1EDC 1A0 300  1EDD 1A1 300  1EDE 1A0 309  1EDF 1A1 309  1EE0 1A0 303  1EE1 1A1 303
1EE2 1A0 323  1EE3 1A1 323  1EE4 55 323  1EE5 75 323  1EE6 55 309  1EE7 75 309  1EE8 1AF 301
1EE9 1B0 301  1EEA 1AF 300  1EEB 1B0 300  1EEC 1AF 309  1EED 1B0 309  1EEE 1AF 303  1EEF 1B0 303
1EF0 1AF 323  1EF1 1B0 323  1EF2 59 300  1EF3 79 300  1EF4 59 323  1EF5 79 323  1EF6 59 309
1EF7 79 309  1EF8 59 303  1EF9 79 303  1F00 3B1 313  1F01 3B1 314  1F02 1F00 300  1F03 1F01 300
1F04 1F00 301  1F05 1F01 301  1F06 1F00 342  1F07 1F01 342  1F08 391 313  1F09 391 314
1F0A 1F08 300  1F0B 1F09 300  1F0C 1F08 301  1F0D 1F09 301  1F0E 1F08 342  1F0F 1F09 342
1F10 3B5 313  1F11 3B5 314  1F12 1F10 300  1F13 1F11 300  1F14 1F10 301  1F15 1F11 301
1F18 395 313  1F19 395 314  1F1A 1F18 300  1F1B 1F19 300  1F1C 1F18 301  1F1D 1F19 301
1F20 3B7 313  1F21 3B7 314  1F22 1F20 300  1F23 1F21 300  1F24 1F20 301  1F25 1F21 301
1F26 1F20 342  1F27 1F21 342  1F28 397 313  1F29 397 314  1F2A 1F28 300  1F2B 1F29 300
1F2C 1F28 301  1F2D 1F29 301  1F2E 1F28 342  1F2F 1F29 342  1F30 3B9 313  1F31 3B9 314
1F32 1F30 300  1F33 1F31 300  1F34 1F30 301  1F35 1F31 301  1F36 1F30 342  1F37 1F31 342
1F38 399 313  1F39 399 314  1F3A 1F38 300  1F3B 1F39 300  1F3C 1F38 301  1F3D 1F39 301
1F3E 1F38 342  1F3F 1F39 342  1F40 3BF 313  1F41 3BF 314  1F42 1F40 300  1F43 1F41 300
1F44 1F40 301  1F45 1F41 301  1F48 39F 313  1F49 39F 314  1F4A 1F48 300  1F4B 1F49 300
1F4C 1F48 301  1F4D 1F49 301  1F50 3C5 313  1F51 3C5 314  1F52 1F50 300  1F53 1F51 300
1F54 1F50 301  1F55 1F51 301  1F56 1F50 342  1F57 1F51 342  1F59 3A5 314  1F5B 1F59 300
1F5D 1F59 301  1F5F 1F59 342  1F60 3C9 313  1F61 3C9 314  1F62 1F60 300  1F63 1F61 300
1F64 1F60 301  1F65 1F61 301  1F66 1F60 342  1F67 1F61 342  1F68 3A9 313  1F69 3A9 314
1F6A 1F68 300  1F6B 1F69 300  1F6C 1F68 301  1F6D 1F69 301  1F6E 1F68 342  1F6F 1F69 342
1F70 3B1 300  1F72 3B5 300  1F74 3B7 300  1F76 3B9 300  1F78 3BF 300  1F7A 3C5 300  1F7C 3C9 300
1F80 1F00 345  1F81 1F01 345  1F82 1F02 345  1F83 1F03 345  1F84 1F04 345  1F85 1F05 345
1F86 1F06 345  1F87 1F07 345  1F88 1F08 345  1F89 1F09 345  1F8A 1F0A 345  1F8B 1F0B 345
1F8C 1F0C 345  1F8D 1F0D 345  1F8E 1F0E 345  1F8F 1F0F 345  1F90 1F20 345  1F91 1F21 345
1F92 1F22 345  1F93 1F23 345  1F94 1F24 345  1F95 1F25 345  1F96 1F26 345  1F97 1F27 345
1F98 1F28 345  1F99 1F29 345  1F9A 1F2A 345  1F9B 1F2B 345  1F9C 1F2C 345  1F9D 1F2D 345
1F9E 1F2E 345  1F9F 1F2F 345  1FA0 1F60 345  1FA1 1F61 345  1FA2 1F62 345  1FA3 1F63 345
1FA4 1F64 345  1FA5 1F65 345  1FA6 1F66 345  1FA7 1F67 345  1FA8 1F68 345  1FA9 1F69 345
1FAA 1F6A 345  1FAB 1F6B 345  1FAC 1F6C 345  1FAD 1F6D 345  1FAE 1F6E 345  1FAF 1F6F 345
1FB0 3B1 306  1FB1 3B1 304  1FB2 1F70 345  1FB3 3B1 345  1FB4 3AC 345  1FB6 3B1 342
1FB7 1FB6 345  1FB8 391 306  1FB9 391 304  1FBA 391 300  1FBC 391 345  1FC1 A8 342
1FC2 1F74 345  1FC3 3B7 345  1FC4 3AE 345  1FC6 3B7 342  1FC7 1FC6 345  1FC8 395 300
1FCA 397 300  1FCC 397 345  1FCD 1FBF 300  1FCE 1FBF 301  1FCF 1FBF 342  1FD0 3B9 306
1FD1 3B9 304  1FD2 3CA 300  1FD6 3B9 342  1FD7 3CA 342  1FD8 399 306  1FD9 399 304  1FDA 399 300
1FDD 1FFE 300  1FDE 1FFE 301  1FDF 1FFE 342  1FE0 3C5 306  1FE1 3C5 304  1FE2 3CB 300
1FE4 3C1 313  1FE5 3C1 314  1FE6 3C5 342  1FE7 3CB 342  1FE8 3A5 306  1FE9 3A5 304  1FEA 3A5 300
1FEC 3A1 314  1FED A8 300  1FF2 1F7C 345  1FF3 3C9 345  1FF4 3CE 345  1FF6 3C9 342
1FF7 1FF6 345  1FF8 39F 300  1FFA 3A9 300  1FFC 3A9 345  219A 2190 338  219B 2192 338
21AE 2194 338  21CD 21D0 338  21CE 21D4 338  21CF 21D2 338  2204 2203 338  2209 2208 338
220C 220B 338  2224 2223 338  2226 2225 338  2241 223C 338  2244 2243 338  2247 2245 338
2249 2248 338  2260 3D 338  2262 2261 338  226D 224D 338  226E 3C 338  226F 3E 338
2270 2264 338  2271 2265 338  2274 2272 338  2275 2273 338  2278 2276 338  2279 2277 338
2280 227A 338  2281 227B 338  2284 2282 338  2285 2283 338  2288 2286 338  2289 2287 338
22AC 22A2 338  22AD 22A8 338  22AE 22A9 338  22AF 22AB 338  22E0 227C 338  22E1 227D 338
22E2 2291 338  22E3 2292 338  22EA 22B2 338  22EB 22B3 338  22EC 22B4 338  22ED 22B5 338
304C 304B 3099  304E 304D 3099  3050 304F 3099  3052 3051 3099  3054 3053 3099  3056 3055 3099
3058 3057 3099  305A 3059 3099  305C 305B 3099  305E 305D 3099  3060 305F 3099  3062 3061 3099
3065 3064 3099  3067 3066 3099  3069 3068 3099  3070 306F 3099  3071 306F 309A  3073 3072 3099
3074 3072 309A  3076 3075 3099  3077 3075 309A  3079 3078 3099  307A 3078 309A  307C 307B 3099
307D 307B 309A  3094 3046 3099  309E 309D 3099  30AC 30AB 3099  30AE 30AD 3099  30B0 30AF 3099
30B2 30B1 3099  30B4 30B3 3099  30B6 30B5 3099  30B8 30B7 3099  30BA 30B9 3099  30BC 30BB 3099
30BE 30BD 3099  30C0 30BF 3099  30C2 30C1 3099  30C5 30C4 3099  30C7 30C6 3099  30C9 30C8 3099
30D0 30CF 3099  30D1 30CF 309A  30D3 30D2 3099  30D4 30D2 309A  30D6 30D5 3099  30D7 30D5 309A
30D9 30D8 3099  30DA 30D8 309A  30DC 30DB 3099  30DD 30DB 309A  30F4 30A6 3099  30F7 30EF 3099
30F8 30F0 3099  30F9 30F1 3099  30FA 30F2 3099  30FE 30FD 3099  1109A 11099 110BA
1109C 1109B 110BA  110AB 110A5 110BA  1112E 11131 11127  1112F 11132 11127  1134B 11347 1133E
1134C 11347 11357  114BB 114B9 114BA  114BC 114B9 114B0  114BE 114B9 114BD  115BA 115B8 115AF
115BB 115B9 115AF  11938 11935 11930")

/-- Code points that decompose, into two or into one, and are never composed. -/
def exclusions : List (Nat × Nat × Nat) := triples (numbers "
340 300 0  341 301 0  343 313 0  344 308 301  374 2B9 0  37E 3B 0  387 B7 0  958 915 93C
959 916 93C  95A 917 93C  95B 91C 93C  95C 921 93C  95D 922 93C  95E 92B 93C  95F 92F 93C
9DC 9A1 9BC  9DD 9A2 9BC  9DF 9AF 9BC  A33 A32 A3C  A36 A38 A3C  A59 A16 A3C  A5A A17 A3C
A5B A1C A3C  A5E A2B A3C  B5C B21 B3C  B5D B22 B3C  F43 F42 FB7  F4D F4C FB7  F52 F51 FB7
F57 F56 FB7  F5C F5B FB7  F69 F40 FB5  F73 F71 F72  F75 F71 F74  F76 FB2 F80  F78 FB3 F80
F81 F71 F80  F93 F92 FB7  F9D F9C FB7  FA2 FA1 FB7  FA7 FA6 FB7  FAC FAB FB7  FB9 F90 FB5
1F71 3AC 0  1F73 3AD 0  1F75 3AE 0  1F77 3AF 0  1F79 3CC 0  1F7B 3CD 0  1F7D 3CE 0  1FBB 386 0
1FBE 3B9 0  1FC9 388 0  1FCB 389 0  1FD3 390 0  1FDB 38A 0  1FE3 3B0 0  1FEB 38E 0  1FEE 385 0
1FEF 60 0  1FF9 38C 0  1FFB 38F 0  1FFD B4 0  2000 2002 0  2001 2003 0  2126 3A9 0  212A 4B 0
212B C5 0  2329 3008 0  232A 3009 0  2ADC 2ADD 338  F900 8C48 0  F901 66F4 0  F902 8ECA 0
F903 8CC8 0  F904 6ED1 0  F905 4E32 0  F906 53E5 0  F907 9F9C 0  F908 9F9C 0  F909 5951 0
F90A 91D1 0  F90B 5587 0  F90C 5948 0  F90D 61F6 0  F90E 7669 0  F90F 7F85 0  F910 863F 0
F911 87BA 0  F912 88F8 0  F913 908F 0  F914 6A02 0  F915 6D1B 0  F916 70D9 0  F917 73DE 0
F918 843D 0  F919 916A 0  F91A 99F1 0  F91B 4E82 0  F91C 5375 0  F91D 6B04 0  F91E 721B 0
F91F 862D 0  F920 9E1E 0  F921 5D50 0  F922 6FEB 0  F923 85CD 0  F924 8964 0  F925 62C9 0
F926 81D8 0  F927 881F 0  F928 5ECA 0  F929 6717 0  F92A 6D6A 0  F92B 72FC 0  F92C 90CE 0
F92D 4F86 0  F92E 51B7 0  F92F 52DE 0  F930 64C4 0  F931 6AD3 0  F932 7210 0  F933 76E7 0
F934 8001 0  F935 8606 0  F936 865C 0  F937 8DEF 0  F938 9732 0  F939 9B6F 0  F93A 9DFA 0
F93B 788C 0  F93C 797F 0  F93D 7DA0 0  F93E 83C9 0  F93F 9304 0  F940 9E7F 0  F941 8AD6 0
F942 58DF 0  F943 5F04 0  F944 7C60 0  F945 807E 0  F946 7262 0  F947 78CA 0  F948 8CC2 0
F949 96F7 0  F94A 58D8 0  F94B 5C62 0  F94C 6A13 0  F94D 6DDA 0  F94E 6F0F 0  F94F 7D2F 0
F950 7E37 0  F951 964B 0  F952 52D2 0  F953 808B 0  F954 51DC 0  F955 51CC 0  F956 7A1C 0
F957 7DBE 0  F958 83F1 0  F959 9675 0  F95A 8B80 0  F95B 62CF 0  F95C 6A02 0  F95D 8AFE 0
F95E 4E39 0  F95F 5BE7 0  F960 6012 0  F961 7387 0  F962 7570 0  F963 5317 0  F964 78FB 0
F965 4FBF 0  F966 5FA9 0  F967 4E0D 0  F968 6CCC 0  F969 6578 0  F96A 7D22 0  F96B 53C3 0
F96C 585E 0  F96D 7701 0  F96E 8449 0  F96F 8AAA 0  F970 6BBA 0  F971 8FB0 0  F972 6C88 0
F973 62FE 0  F974 82E5 0  F975 63A0 0  F976 7565 0  F977 4EAE 0  F978 5169 0  F979 51C9 0
F97A 6881 0  F97B 7CE7 0  F97C 826F 0  F97D 8AD2 0  F97E 91CF 0  F97F 52F5 0  F980 5442 0
F981 5973 0  F982 5EEC 0  F983 65C5 0  F984 6FFE 0  F985 792A 0  F986 95AD 0  F987 9A6A 0
F988 9E97 0  F989 9ECE 0  F98A 529B 0  F98B 66C6 0  F98C 6B77 0  F98D 8F62 0  F98E 5E74 0
F98F 6190 0  F990 6200 0  F991 649A 0  F992 6F23 0  F993 7149 0  F994 7489 0  F995 79CA 0
F996 7DF4 0  F997 806F 0  F998 8F26 0  F999 84EE 0  F99A 9023 0  F99B 934A 0  F99C 5217 0
F99D 52A3 0  F99E 54BD 0  F99F 70C8 0  F9A0 88C2 0  F9A1 8AAA 0  F9A2 5EC9 0  F9A3 5FF5 0
F9A4 637B 0  F9A5 6BAE 0  F9A6 7C3E 0  F9A7 7375 0  F9A8 4EE4 0  F9A9 56F9 0  F9AA 5BE7 0
F9AB 5DBA 0  F9AC 601C 0  F9AD 73B2 0  F9AE 7469 0  F9AF 7F9A 0  F9B0 8046 0  F9B1 9234 0
F9B2 96F6 0  F9B3 9748 0  F9B4 9818 0  F9B5 4F8B 0  F9B6 79AE 0  F9B7 91B4 0  F9B8 96B8 0
F9B9 60E1 0  F9BA 4E86 0  F9BB 50DA 0  F9BC 5BEE 0  F9BD 5C3F 0  F9BE 6599 0  F9BF 6A02 0
F9C0 71CE 0  F9C1 7642 0  F9C2 84FC 0  F9C3 907C 0  F9C4 9F8D 0  F9C5 6688 0  F9C6 962E 0
F9C7 5289 0  F9C8 677B 0  F9C9 67F3 0  F9CA 6D41 0  F9CB 6E9C 0  F9CC 7409 0  F9CD 7559 0
F9CE 786B 0  F9CF 7D10 0  F9D0 985E 0  F9D1 516D 0  F9D2 622E 0  F9D3 9678 0  F9D4 502B 0
F9D5 5D19 0  F9D6 6DEA 0  F9D7 8F2A 0  F9D8 5F8B 0  F9D9 6144 0  F9DA 6817 0  F9DB 7387 0
F9DC 9686 0  F9DD 5229 0  F9DE 540F 0  F9DF 5C65 0  F9E0 6613 0  F9E1 674E 0  F9E2 68A8 0
F9E3 6CE5 0  F9E4 7406 0  F9E5 75E2 0  F9E6 7F79 0  F9E7 88CF 0  F9E8 88E1 0  F9E9 91CC 0
F9EA 96E2 0  F9EB 533F 0  F9EC 6EBA 0  F9ED 541D 0  F9EE 71D0 0  F9EF 7498 0  F9F0 85FA 0
F9F1 96A3 0  F9F2 9C57 0  F9F3 9E9F 0  F9F4 6797 0  F9F5 6DCB 0  F9F6 81E8 0  F9F7 7ACB 0
F9F8 7B20 0  F9F9 7C92 0  F9FA 72C0 0  F9FB 7099 0  F9FC 8B58 0  F9FD 4EC0 0  F9FE 8336 0
F9FF 523A 0  FA00 5207 0  FA01 5EA6 0  FA02 62D3 0  FA03 7CD6 0  FA04 5B85 0  FA05 6D1E 0
FA06 66B4 0  FA07 8F3B 0  FA08 884C 0  FA09 964D 0  FA0A 898B 0  FA0B 5ED3 0  FA0C 5140 0
FA0D 55C0 0  FA10 585A 0  FA12 6674 0  FA15 51DE 0  FA16 732A 0  FA17 76CA 0  FA18 793C 0
FA19 795E 0  FA1A 7965 0  FA1B 798F 0  FA1C 9756 0  FA1D 7CBE 0  FA1E 7FBD 0  FA20 8612 0
FA22 8AF8 0  FA25 9038 0  FA26 90FD 0  FA2A 98EF 0  FA2B 98FC 0  FA2C 9928 0  FA2D 9DB4 0
FA2E 90DE 0  FA2F 96B7 0  FA30 4FAE 0  FA31 50E7 0  FA32 514D 0  FA33 52C9 0  FA34 52E4 0
FA35 5351 0  FA36 559D 0  FA37 5606 0  FA38 5668 0  FA39 5840 0  FA3A 58A8 0  FA3B 5C64 0
FA3C 5C6E 0  FA3D 6094 0  FA3E 6168 0  FA3F 618E 0  FA40 61F2 0  FA41 654F 0  FA42 65E2 0
FA43 6691 0  FA44 6885 0  FA45 6D77 0  FA46 6E1A 0  FA47 6F22 0  FA48 716E 0  FA49 722B 0
FA4A 7422 0  FA4B 7891 0  FA4C 793E 0  FA4D 7949 0  FA4E 7948 0  FA4F 7950 0  FA50 7956 0
FA51 795D 0  FA52 798D 0  FA53 798E 0  FA54 7A40 0  FA55 7A81 0  FA56 7BC0 0  FA57 7DF4 0
FA58 7E09 0  FA59 7E41 0  FA5A 7F72 0  FA5B 8005 0  FA5C 81ED 0  FA5D 8279 0  FA5E 8279 0
FA5F 8457 0  FA60 8910 0  FA61 8996 0  FA62 8B01 0  FA63 8B39 0  FA64 8CD3 0  FA65 8D08 0
FA66 8FB6 0  FA67 9038 0  FA68 96E3 0  FA69 97FF 0  FA6A 983B 0  FA6B 6075 0  FA6C 242EE 0
FA6D 8218 0  FA70 4E26 0  FA71 51B5 0  FA72 5168 0  FA73 4F80 0  FA74 5145 0  FA75 5180 0
FA76 52C7 0  FA77 52FA 0  FA78 559D 0  FA79 5555 0  FA7A 5599 0  FA7B 55E2 0  FA7C 585A 0
FA7D 58B3 0  FA7E 5944 0  FA7F 5954 0  FA80 5A62 0  FA81 5B28 0  FA82 5ED2 0  FA83 5ED9 0
FA84 5F69 0  FA85 5FAD 0  FA86 60D8 0  FA87 614E 0  FA88 6108 0  FA89 618E 0  FA8A 6160 0
FA8B 61F2 0  FA8C 6234 0  FA8D 63C4 0  FA8E 641C 0  FA8F 6452 0  FA90 6556 0  FA91 6674 0
FA92 6717 0  FA93 671B 0  FA94 6756 0  FA95 6B79 0  FA96 6BBA 0  FA97 6D41 0  FA98 6EDB 0
FA99 6ECB 0  FA9A 6F22 0  FA9B 701E 0  FA9C 716E 0  FA9D 77A7 0  FA9E 7235 0  FA9F 72AF 0
FAA0 732A 0  FAA1 7471 0  FAA2 7506 0  FAA3 753B 0  FAA4 761D 0  FAA5 761F 0  FAA6 76CA 0
FAA7 76DB 0  FAA8 76F4 0  FAA9 774A 0  FAAA 7740 0  FAAB 78CC 0  FAAC 7AB1 0  FAAD 7BC0 0
FAAE 7C7B 0  FAAF 7D5B 0  FAB0 7DF4 0  FAB1 7F3E 0  FAB2 8005 0  FAB3 8352 0  FAB4 83EF 0
FAB5 8779 0  FAB6 8941 0  FAB7 8986 0  FAB8 8996 0  FAB9 8ABF 0  FABA 8AF8 0  FABB 8ACB 0
FABC 8B01 0  FABD 8AFE 0  FABE 8AED 0  FABF 8B39 0  FAC0 8B8A 0  FAC1 8D08 0  FAC2 8F38 0
FAC3 9072 0  FAC4 9199 0  FAC5 9276 0  FAC6 967C 0  FAC7 96E3 0  FAC8 9756 0  FAC9 97DB 0
FACA 97FF 0  FACB 980B 0  FACC 983B 0  FACD 9B12 0  FACE 9F9C 0  FACF 2284A 0  FAD0 22844 0
FAD1 233D5 0  FAD2 3B9D 0  FAD3 4018 0  FAD4 4039 0  FAD5 25249 0  FAD6 25CD0 0  FAD7 27ED3 0
FAD8 9F43 0  FAD9 9F8E 0  FB1D 5D9 5B4  FB1F 5F2 5B7  FB2A 5E9 5C1  FB2B 5E9 5C2  FB2C FB49 5C1
FB2D FB49 5C2  FB2E 5D0 5B7  FB2F 5D0 5B8  FB30 5D0 5BC  FB31 5D1 5BC  FB32 5D2 5BC
FB33 5D3 5BC  FB34 5D4 5BC  FB35 5D5 5BC  FB36 5D6 5BC  FB38 5D8 5BC  FB39 5D9 5BC  FB3A 5DA 5BC
FB3B 5DB 5BC  FB3C 5DC 5BC  FB3E 5DE 5BC  FB40 5E0 5BC  FB41 5E1 5BC  FB43 5E3 5BC  FB44 5E4 5BC
FB46 5E6 5BC  FB47 5E7 5BC  FB48 5E8 5BC  FB49 5E9 5BC  FB4A 5EA 5BC  FB4B 5D5 5B9  FB4C 5D1 5BF
FB4D 5DB 5BF  FB4E 5E4 5BF  1D15E 1D157 1D165  1D15F 1D158 1D165  1D160 1D15F 1D16E
1D161 1D15F 1D16F  1D162 1D15F 1D170  1D163 1D15F 1D171  1D164 1D15F 1D172  1D1BB 1D1B9 1D165
1D1BC 1D1BA 1D165  1D1BD 1D1BB 1D16E  1D1BE 1D1BC 1D16E  1D1BF 1D1BB 1D16F  1D1C0 1D1BC 1D16F
2F800 4E3D 0  2F801 4E38 0  2F802 4E41 0  2F803 20122 0  2F804 4F60 0  2F805 4FAE 0
2F806 4FBB 0  2F807 5002 0  2F808 507A 0  2F809 5099 0  2F80A 50E7 0  2F80B 50CF 0  2F80C 349E 0
2F80D 2063A 0  2F80E 514D 0  2F80F 5154 0  2F810 5164 0  2F811 5177 0  2F812 2051C 0
2F813 34B9 0  2F814 5167 0  2F815 518D 0  2F816 2054B 0  2F817 5197 0  2F818 51A4 0
2F819 4ECC 0  2F81A 51AC 0  2F81B 51B5 0  2F81C 291DF 0  2F81D 51F5 0  2F81E 5203 0
2F81F 34DF 0  2F820 523B 0  2F821 5246 0  2F822 5272 0  2F823 5277 0  2F824 3515 0  2F825 52C7 0
2F826 52C9 0  2F827 52E4 0  2F828 52FA 0  2F829 5305 0  2F82A 5306 0  2F82B 5317 0  2F82C 5349 0
2F82D 5351 0  2F82E 535A 0  2F82F 5373 0  2F830 537D 0  2F831 537F 0  2F832 537F 0  2F833 537F 0
2F834 20A2C 0  2F835 7070 0  2F836 53CA 0  2F837 53DF 0  2F838 20B63 0  2F839 53EB 0
2F83A 53F1 0  2F83B 5406 0  2F83C 549E 0  2F83D 5438 0  2F83E 5448 0  2F83F 5468 0  2F840 54A2 0
2F841 54F6 0  2F842 5510 0  2F843 5553 0  2F844 5563 0  2F845 5584 0  2F846 5584 0  2F847 5599 0
2F848 55AB 0  2F849 55B3 0  2F84A 55C2 0  2F84B 5716 0  2F84C 5606 0  2F84D 5717 0  2F84E 5651 0
2F84F 5674 0  2F850 5207 0  2F851 58EE 0  2F852 57CE 0  2F853 57F4 0  2F854 580D 0  2F855 578B 0
2F856 5832 0  2F857 5831 0  2F858 58AC 0  2F859 214E4 0  2F85A 58F2 0  2F85B 58F7 0
2F85C 5906 0  2F85D 591A 0  2F85E 5922 0  2F85F 5962 0  2F860 216A8 0  2F861 216EA 0
2F862 59EC 0  2F863 5A1B 0  2F864 5A27 0  2F865 59D8 0  2F866 5A66 0  2F867 36EE 0  2F868 36FC 0
2F869 5B08 0  2F86A 5B3E 0  2F86B 5B3E 0  2F86C 219C8 0  2F86D 5BC3 0  2F86E 5BD8 0
2F86F 5BE7 0  2F870 5BF3 0  2F871 21B18 0  2F872 5BFF 0  2F873 5C06 0  2F874 5F53 0
2F875 5C22 0  2F876 3781 0  2F877 5C60 0  2F878 5C6E 0  2F879 5CC0 0  2F87A 5C8D 0
2F87B 21DE4 0  2F87C 5D43 0  2F87D 21DE6 0  2F87E 5D6E 0  2F87F 5D6B 0  2F880 5D7C 0
2F881 5DE1 0  2F882 5DE2 0  2F883 382F 0  2F884 5DFD 0  2F885 5E28 0  2F886 5E3D 0  2F887 5E69 0
2F888 3862 0  2F889 22183 0  2F88A 387C 0  2F88B 5EB0 0  2F88C 5EB3 0  2F88D 5EB6 0
2F88E 5ECA 0  2F88F 2A392 0  2F890 5EFE 0  2F891 22331 0  2F892 22331 0  2F893 8201 0
2F894 5F22 0  2F895 5F22 0  2F896 38C7 0  2F897 232B8 0  2F898 261DA 0  2F899 5F62 0
2F89A 5F6B 0  2F89B 38E3 0  2F89C 5F9A 0  2F89D 5FCD 0  2F89E 5FD7 0  2F89F 5FF9 0  2F8A0 6081 0
2F8A1 393A 0  2F8A2 391C 0  2F8A3 6094 0  2F8A4 226D4 0  2F8A5 60C7 0  2F8A6 6148 0
2F8A7 614C 0  2F8A8 614E 0  2F8A9 614C 0  2F8AA 617A 0  2F8AB 618E 0  2F8AC 61B2 0  2F8AD 61A4 0
2F8AE 61AF 0  2F8AF 61DE 0  2F8B0 61F2 0  2F8B1 61F6 0  2F8B2 6210 0  2F8B3 621B 0  2F8B4 625D 0
2F8B5 62B1 0  2F8B6 62D4 0  2F8B7 6350 0  2F8B8 22B0C 0  2F8B9 633D 0  2F8BA 62FC 0
2F8BB 6368 0  2F8BC 6383 0  2F8BD 63E4 0  2F8BE 22BF1 0  2F8BF 6422 0  2F8C0 63C5 0
2F8C1 63A9 0  2F8C2 3A2E 0  2F8C3 6469 0  2F8C4 647E 0  2F8C5 649D 0  2F8C6 6477 0  2F8C7 3A6C 0
2F8C8 654F 0  2F8C9 656C 0  2F8CA 2300A 0  2F8CB 65E3 0  2F8CC 66F8 0  2F8CD 6649 0
2F8CE 3B19 0  2F8CF 6691 0  2F8D0 3B08 0  2F8D1 3AE4 0  2F8D2 5192 0  2F8D3 5195 0  2F8D4 6700 0
2F8D5 669C 0  2F8D6 80AD 0  2F8D7 43D9 0  2F8D8 6717 0  2F8D9 671B 0  2F8DA 6721 0  2F8DB 675E 0
2F8DC 6753 0  2F8DD 233C3 0  2F8DE 3B49 0  2F8DF 67FA 0  2F8E0 6785 0  2F8E1 6852 0
2F8E2 6885 0  2F8E3 2346D 0  2F8E4 688E 0  2F8E5 681F 0  2F8E6 6914 0  2F8E7 3B9D 0
2F8E8 6942 0  2F8E9 69A3 0  2F8EA 69EA 0  2F8EB 6AA8 0  2F8EC 236A3 0  2F8ED 6ADB 0
2F8EE 3C18 0  2F8EF 6B21 0  2F8F0 238A7 0  2F8F1 6B54 0  2F8F2 3C4E 0  2F8F3 6B72 0
2F8F4 6B9F 0  2F8F5 6BBA 0  2F8F6 6BBB 0  2F8F7 23A8D 0  2F8F8 21D0B 0  2F8F9 23AFA 0
2F8FA 6C4E 0  2F8FB 23CBC 0  2F8FC 6CBF 0  2F8FD 6CCD 0  2F8FE 6C67 0  2F8FF 6D16 0
2F900 6D3E 0  2F901 6D77 0  2F902 6D41 0  2F903 6D69 0  2F904 6D78 0  2F905 6D85 0
2F906 23D1E 0  2F907 6D34 0  2F908 6E2F 0  2F909 6E6E 0  2F90A 3D33 0  2F90B 6ECB 0
2F90C 6EC7 0  2F90D 23ED1 0  2F90E 6DF9 0  2F90F 6F6E 0  2F910 23F5E 0  2F911 23F8E 0
2F912 6FC6 0  2F913 7039 0  2F914 701E 0  2F915 701B 0  2F916 3D96 0  2F917 704A 0  2F918 707D 0
2F919 7077 0  2F91A 70AD 0  2F91B 20525 0  2F91C 7145 0  2F91D 24263 0  2F91E 719C 0
2F91F 243AB 0  2F920 7228 0  2F921 7235 0  2F922 7250 0  2F923 24608 0  2F924 7280 0
2F925 7295 0  2F926 24735 0  2F927 24814 0  2F928 737A 0  2F929 738B 0  2F92A 3EAC 0
2F92B 73A5 0  2F92C 3EB8 0  2F92D 3EB8 0  2F92E 7447 0  2F92F 745C 0  2F930 7471 0  2F931 7485 0
2F932 74CA 0  2F933 3F1B 0  2F934 7524 0  2F935 24C36 0  2F936 753E 0  2F937 24C92 0
2F938 7570 0  2F939 2219F 0  2F93A 7610 0  2F93B 24FA1 0  2F93C 24FB8 0  2F93D 25044 0
2F93E 3FFC 0  2F93F 4008 0  2F940 76F4 0  2F941 250F3 0  2F942 250F2 0  2F943 25119 0
2F944 25133 0  2F945 771E 0  2F946 771F 0  2F947 771F 0  2F948 774A 0  2F949 4039 0
2F94A 778B 0  2F94B 4046 0  2F94C 4096 0  2F94D 2541D 0  2F94E 784E 0  2F94F 788C 0
2F950 78CC 0  2F951 40E3 0  2F952 25626 0  2F953 7956 0  2F954 2569A 0  2F955 256C5 0
2F956 798F 0  2F957 79EB 0  2F958 412F 0  2F959 7A40 0  2F95A 7A4A 0  2F95B 7A4F 0
2F95C 2597C 0  2F95D 25AA7 0  2F95E 25AA7 0  2F95F 7AEE 0  2F960 4202 0  2F961 25BAB 0
2F962 7BC6 0  2F963 7BC9 0  2F964 4227 0  2F965 25C80 0  2F966 7CD2 0  2F967 42A0 0
2F968 7CE8 0  2F969 7CE3 0  2F96A 7D00 0  2F96B 25F86 0  2F96C 7D63 0  2F96D 4301 0
2F96E 7DC7 0  2F96F 7E02 0  2F970 7E45 0  2F971 4334 0  2F972 26228 0  2F973 26247 0
2F974 4359 0  2F975 262D9 0  2F976 7F7A 0  2F977 2633E 0  2F978 7F95 0  2F979 7FFA 0
2F97A 8005 0  2F97B 264DA 0  2F97C 26523 0  2F97D 8060 0  2F97E 265A8 0  2F97F 8070 0
2F980 2335F 0  2F981 43D5 0  2F982 80B2 0  2F983 8103 0  2F984 440B 0  2F985 813E 0
2F986 5AB5 0  2F987 267A7 0  2F988 267B5 0  2F989 23393 0  2F98A 2339C 0  2F98B 8201 0
2F98C 8204 0  2F98D 8F9E 0  2F98E 446B 0  2F98F 8291 0  2F990 828B 0  2F991 829D 0  2F992 52B3 0
2F993 82B1 0  2F994 82B3 0  2F995 82BD 0  2F996 82E6 0  2F997 26B3C 0  2F998 82E5 0
2F999 831D 0  2F99A 8363 0  2F99B 83AD 0  2F99C 8323 0  2F99D 83BD 0  2F99E 83E7 0  2F99F 8457 0
2F9A0 8353 0  2F9A1 83CA 0  2F9A2 83CC 0  2F9A3 83DC 0  2F9A4 26C36 0  2F9A5 26D6B 0
2F9A6 26CD5 0  2F9A7 452B 0  2F9A8 84F1 0  2F9A9 84F3 0  2F9AA 8516 0  2F9AB 273CA 0
2F9AC 8564 0  2F9AD 26F2C 0  2F9AE 455D 0  2F9AF 4561 0  2F9B0 26FB1 0  2F9B1 270D2 0
2F9B2 456B 0  2F9B3 8650 0  2F9B4 865C 0  2F9B5 8667 0  2F9B6 8669 0  2F9B7 86A9 0  2F9B8 8688 0
2F9B9 870E 0  2F9BA 86E2 0  2F9BB 8779 0  2F9BC 8728 0  2F9BD 876B 0  2F9BE 8786 0  2F9BF 45D7 0
2F9C0 87E1 0  2F9C1 8801 0  2F9C2 45F9 0  2F9C3 8860 0  2F9C4 8863 0  2F9C5 27667 0
2F9C6 88D7 0  2F9C7 88DE 0  2F9C8 4635 0  2F9C9 88FA 0  2F9CA 34BB 0  2F9CB 278AE 0
2F9CC 27966 0  2F9CD 46BE 0  2F9CE 46C7 0  2F9CF 8AA0 0  2F9D0 8AED 0  2F9D1 8B8A 0
2F9D2 8C55 0  2F9D3 27CA8 0  2F9D4 8CAB 0  2F9D5 8CC1 0  2F9D6 8D1B 0  2F9D7 8D77 0
2F9D8 27F2F 0  2F9D9 20804 0  2F9DA 8DCB 0  2F9DB 8DBC 0  2F9DC 8DF0 0  2F9DD 208DE 0
2F9DE 8ED4 0  2F9DF 8F38 0  2F9E0 285D2 0  2F9E1 285ED 0  2F9E2 9094 0  2F9E3 90F1 0
2F9E4 9111 0  2F9E5 2872E 0  2F9E6 911B 0  2F9E7 9238 0  2F9E8 92D7 0  2F9E9 92D8 0
2F9EA 927C 0  2F9EB 93F9 0  2F9EC 9415 0  2F9ED 28BFA 0  2F9EE 958B 0  2F9EF 4995 0
2F9F0 95B7 0  2F9F1 28D77 0  2F9F2 49E6 0  2F9F3 96C3 0  2F9F4 5DB2 0  2F9F5 9723 0
2F9F6 29145 0  2F9F7 2921A 0  2F9F8 4A6E 0  2F9F9 4A76 0  2F9FA 97E0 0  2F9FB 2940A 0
2F9FC 4AB2 0  2F9FD 29496 0  2F9FE 980B 0  2F9FF 980B 0  2FA00 9829 0  2FA01 295B6 0
2FA02 98E2 0  2FA03 4B33 0  2FA04 9929 0  2FA05 99A7 0  2FA06 99C2 0  2FA07 99FE 0  2FA08 4BCE 0
2FA09 29B30 0  2FA0A 9B12 0  2FA0B 9C40 0  2FA0C 9CFD 0  2FA0D 4CCE 0  2FA0E 4CED 0
2FA0F 9D67 0  2FA10 2A0CE 0  2FA11 4CF8 0  2FA12 2A105 0  2FA13 2A20E 0  2FA14 2A291 0
2FA15 9EBB 0  2FA16 4D56 0  2FA17 9EF9 0  2FA18 9EFE 0  2FA19 9F05 0  2FA1A 9F0F 0  2FA1B 9F16 0
2FA1C 9F3B 0  2FA1D 2A600 0")

def classTable : List (Nat × List (Nat × Nat)) := [
  (1, ranges "
334-338 1CD4 1CE2-1CE8 20D2-20D3 20D8-20DA 20E5-20E6 20EA-20EB 10A39 16AF0-16AF4 1BC9E
1D167-1D169"),
  (6, ranges "16FF0-16FF1"),
  (7, ranges "
93C 9BC A3C ABC B3C C3C CBC 1037 1B34 1BE6 1C37 A9B3 110BA 11173 111CA 11236 112E9 1133B-1133C
11446 114C3 115C0 116B7 1183A 11943 11D42 1E94A"),
  (8, ranges "3099-309A"),
  (9, ranges "
94D 9CD A4D ACD B4D BCD C4D CCD D3B-D3C D4D DCA E3A EBA F84 1039-103A 1714-1715 1734 17D2 1A60
1B44 1BAA-1BAB 1BF2-1BF3 2D7F A806 A82C A8C4 A953 A9C0 AAF6 ABED 10A3F 11046 11070 1107F 110B9
11133-11134 111C0 11235 112EA 1134D 11442 114C2 115BF 1163F 116B6 1172B 11839 1193D-1193E 119E0
11A34 11A47 11A99 11C3F 11D44-11D45 11D97 11F41-11F42"),
  (10, ranges "5B0"),
  (11, ranges "5B1"),
  (12, ranges "5B2"),
  (13, ranges "5B3"),
  (14, ranges "5B4"),
  (15, ranges "5B5"),
  (16, ranges "5B6"),
  (17, ranges "5B7"),
  (18, ranges "5B8 5C7"),
  (19, ranges "5B9-5BA"),
  (20, ranges "5BB"),
  (21, ranges "5BC"),
  (22, ranges "5BD"),
  (23, ranges "5BF"),
  (24, ranges "5C1"),
  (25, ranges "5C2"),
  (26, ranges "FB1E"),
  (27, ranges "64B 8F0"),
  (28, ranges "64C 8F1"),
  (29, ranges "64D 8F2"),
  (30, ranges "618 64E"),
  (31, ranges "619 64F"),
  (32, ranges "61A 650"),
  (33, ranges "651"),
  (34, ranges "652"),
  (35, ranges "670"),
  (36, ranges "711"),
  (84, ranges "C55"),
  (91, ranges "C56"),
  (103, ranges "E38-E39"),
  (107, ranges "E48-E4B"),
  (118, ranges "EB8-EB9"),
  (122, ranges "EC8-ECB"),
  (129, ranges "F71"),
  (130, ranges "F72 F7A-F7D F80"),
  (132, ranges "F74"),
  (202, ranges "321-322 327-328 1DD0"),
  (214, ranges "1DCE"),
  (216, ranges "31B F39 1D165-1D166 1D16E-1D172"),
  (218, ranges "1DFA 302A"),
  (220, ranges "
316-319 31C-320 323-326 329-333 339-33C 347-349 34D-34E 353-356 359-35A 591 596 59B 5A2-5A7 5AA
5C5 655-656 65C 65F 6E3 6EA 6ED 731 734 737-739 73B-73C 73E 742 744 746 748 7F2 7FD 859-85B
899-89B 8CF-8D3 8E3 8E6 8E9 8ED-8EF 8F6 8F9-8FA 952 F18-F19 F35 F37 FC6 108D 193B 1A18 1A7F
1AB5-1ABA 1ABD 1ABF-1AC0 1AC3-1AC4 1ACA 1B6C 1CD5-1CD9 1CDC-1CDF 1CED 1DC2 1DCA 1DCF 1DF9 1DFD
1DFF 20E8 20EC-20EF A92B-A92D AAB4 FE27-FE2D 101FD 102E0 10A0D 10A3A 10AE6 10EFD-10EFF
10F46-10F47 10F4B 10F4D-10F50 10F83 10F85 1D17B-1D182 1D18A-1D18B 1E4EE 1E8D0-1E8D6"),
  (222, ranges "59A 5AD 1939 302D"),
  (224, ranges "302E-302F"),
  (226, ranges "1D16D"),
  (228, ranges "5AE 18A9 1DF7-1DF8 302B"),
  (230, ranges "
300-314 33D-344 346 34A-34C 350-352 357 35B 363-36F 483-487 592-595 597-599 59C-5A1 5A8-5A9
5AB-5AC 5AF 5C4 610-617 653-654 657-65B 65D-65E 6D6-6DC 6DF-6E2 6E4 6E7-6E8 6EB-6EC 730 732-733
735-736 73A 73D 73F-741 743 745 747 749-74A 7EB-7F1 7F3 816-819 81B-823 825-827 829-82D 898
89C-89F 8CA-8CE 8D4-8E1 8E4-8E5 8E7-8E8 8EA-8EC 8F3-8F5 8F7-8F8 8FB-8FF 951 953-954 9FE F82-F83
F86-F87 135D-135F 17DD 193A 1A17 1A75-1A7C 1AB0-1AB4 1ABB-1ABC 1AC1-1AC2 1AC5-1AC9 1ACB-1ACE
1B6B 1B6D-1B73 1CD0-1CD2 1CDA-1CDB 1CE0 1CF4 1CF8-1CF9 1DC0-1DC1 1DC3-1DC9 1DCB-1DCC 1DD1-1DF5
1DFB 1DFE 20D0-20D1 20D4-20D7 20DB-20DC 20E1 20E7 20E9 20F0 2CEF-2CF1 2DE0-2DFF A66F A674-A67D
A69E-A69F A6F0-A6F1 A8E0-A8F1 AAB0 AAB2-AAB3 AAB7-AAB8 AABE-AABF AAC1 FE20-FE26 FE2E-FE2F
10376-1037A 10A0F 10A38 10AE5 10D24-10D27 10EAB-10EAC 10F48-10F4A 10F4C 10F82 10F84 11100-11102
11366-1136C 11370-11374 1145E 16B30-16B36 1D185-1D189 1D1AA-1D1AD 1D242-1D244 1E000-1E006
1E008-1E018 1E01B-1E021 1E023-1E024 1E026-1E02A 1E08F 1E130-1E136 1E2AE 1E2EC-1E2EF 1E4EF
1E944-1E949"),
  (232, ranges "315 31A 358 1DF6 302C 1E4EC-1E4ED"),
  (233, ranges "35C 35F 362 1DFC"),
  (234, ranges "35D-35E 360-361 1DCD"),
  (240, ranges "345")]

/-- Code points without a canonical decomposition that start with a mark in a wider sense. -/
def wideLeads : List (Nat × Nat) := ranges "
3133 3135-3136 313A-313F 314F-3163 FF9E-FF9F FFA3 FFA5-FFA6 FFAA-FFAF FFC2-FFC7 FFCA-FFCF
FFD2-FFD7 FFDA-FFDC"

/-- Code points that end with one more mark in a wider sense than their canonical form does. -/
def wideTrails : List (Nat × Nat) := ranges "
A8 AF B4 B8 1C4-1C6 2D8-2DD 37A 384 1FBD 1FBF-1FC0 1FFD-1FFE 2017 203E 309B-309C 3133 3135-3136
313A-313F 314F-3163 326E-327E 3304 3307 3310 331E 3321 3332 333B 3340 334B 334E FBA4-FBA5
FBB0-FBB1 FC5B-FC5D FC90 FCD9 FD3C-FD3D FE49-FE4C FE70-FE72 FE74 FE76-FE7F FE81-FE8C FEF5-FEFA
FF9E-FF9F FFA3 FFA5-FFA6 FFAA-FFAF FFC2-FFC7 FFCA-FFCF FFD2-FFD7 FFDA-FFDC FFE3 1F213"

def widePairs : List (Nat × Nat) := ranges "
385 F77 F79 1FC1 1FCD-1FCF 1FDD-1FDF 1FED-1FEE FC5E-FC63 FCF2-FCF4"

end CodePoint

end BorrowChecker
