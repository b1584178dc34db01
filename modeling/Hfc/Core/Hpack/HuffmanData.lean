/-
Module: Hfc.Core.Hpack.HuffmanData
Layer: Core
Purpose: The two tables of the Huffman coder: `huff_sym_table`, with the number of bits and the code
  of each symbol, and `huff_decode_table`, with the next state and the symbol for each state and
  each four bits.
Imports: Hfc.Library.ByteText
Main exports: huffSymTable, huffDecodeTable
-/
import Hfc.Library.ByteText

namespace Hfc.Hpack

/-- `huff_sym_table`: the number of bits of a code, and the code aligned to the most significant of
32 bits; the last entry is the end of the string. -/
def huffSymTable : List (Nat × Nat) :=
  [(13, 0xffc00000), (23, 0xffffb000), (28, 0xfffffe20), (28, 0xfffffe30), (28, 0xfffffe40),
    (28, 0xfffffe50), (28, 0xfffffe60), (28, 0xfffffe70), (28, 0xfffffe80), (24, 0xffffea00),
    (30, 0xfffffff0), (28, 0xfffffe90), (28, 0xfffffea0), (30, 0xfffffff4), (28, 0xfffffeb0),
    (28, 0xfffffec0), (28, 0xfffffed0), (28, 0xfffffee0), (28, 0xfffffef0), (28, 0xffffff00),
    (28, 0xffffff10), (28, 0xffffff20), (30, 0xfffffff8), (28, 0xffffff30), (28, 0xffffff40),
    (28, 0xffffff50), (28, 0xffffff60), (28, 0xffffff70), (28, 0xffffff80), (28, 0xffffff90),
    (28, 0xffffffa0), (28, 0xffffffb0), (6, 0x50000000), (10, 0xfe000000), (10, 0xfe400000),
    (12, 0xffa00000), (13, 0xffc80000), (6, 0x54000000), (8, 0xf8000000), (11, 0xff400000),
    (10, 0xfe800000), (10, 0xfec00000), (8, 0xf9000000), (11, 0xff600000), (8, 0xfa000000),
    (6, 0x58000000), (6, 0x5c000000), (6, 0x60000000), (5, 0x0), (5, 0x8000000), (5, 0x10000000),
    (6, 0x64000000), (6, 0x68000000), (6, 0x6c000000), (6, 0x70000000), (6, 0x74000000),
    (6, 0x78000000), (6, 0x7c000000), (7, 0xb8000000), (8, 0xfb000000), (15, 0xfff80000),
    (6, 0x80000000), (12, 0xffb00000), (10, 0xff000000), (13, 0xffd00000), (6, 0x84000000),
    (7, 0xba000000), (7, 0xbc000000), (7, 0xbe000000), (7, 0xc0000000), (7, 0xc2000000),
    (7, 0xc4000000), (7, 0xc6000000), (7, 0xc8000000), (7, 0xca000000), (7, 0xcc000000),
    (7, 0xce000000), (7, 0xd0000000), (7, 0xd2000000), (7, 0xd4000000), (7, 0xd6000000),
    (7, 0xd8000000), (7, 0xda000000), (7, 0xdc000000), (7, 0xde000000), (7, 0xe0000000),
    (7, 0xe2000000), (7, 0xe4000000), (8, 0xfc000000), (7, 0xe6000000), (8, 0xfd000000),
    (13, 0xffd80000), (19, 0xfffe0000), (13, 0xffe00000), (14, 0xfff00000), (6, 0x88000000),
    (15, 0xfffa0000), (5, 0x18000000), (6, 0x8c000000), (5, 0x20000000), (6, 0x90000000),
    (5, 0x28000000), (6, 0x94000000), (6, 0x98000000), (6, 0x9c000000), (5, 0x30000000),
    (7, 0xe8000000), (7, 0xea000000), (6, 0xa0000000), (6, 0xa4000000), (6, 0xa8000000),
    (5, 0x38000000), (6, 0xac000000), (7, 0xec000000), (6, 0xb0000000), (5, 0x40000000),
    (5, 0x48000000), (6, 0xb4000000), (7, 0xee000000), (7, 0xf0000000), (7, 0xf2000000),
    (7, 0xf4000000), (7, 0xf6000000), (15, 0xfffc0000), (11, 0xff800000), (14, 0xfff40000),
    (13, 0xffe80000), (28, 0xffffffc0), (20, 0xfffe6000), (22, 0xffff4800), (20, 0xfffe7000),
    (20, 0xfffe8000), (22, 0xffff4c00), (22, 0xffff5000), (22, 0xffff5400), (23, 0xffffb200),
    (22, 0xffff5800), (23, 0xffffb400), (23, 0xffffb600), (23, 0xffffb800), (23, 0xffffba00),
    (23, 0xffffbc00), (24, 0xffffeb00), (23, 0xffffbe00), (24, 0xffffec00), (24, 0xffffed00),
    (22, 0xffff5c00), (23, 0xffffc000), (24, 0xffffee00), (23, 0xffffc200), (23, 0xffffc400),
    (23, 0xffffc600), (23, 0xffffc800), (21, 0xfffee000), (22, 0xffff6000), (23, 0xffffca00),
    (22, 0xffff6400), (23, 0xffffcc00), (23, 0xffffce00), (24, 0xffffef00), (22, 0xffff6800),
    (21, 0xfffee800), (20, 0xfffe9000), (22, 0xffff6c00), (22, 0xffff7000), (23, 0xffffd000),
    (23, 0xffffd200), (21, 0xfffef000), (23, 0xffffd400), (22, 0xffff7400), (22, 0xffff7800),
    (24, 0xfffff000), (21, 0xfffef800), (22, 0xffff7c00), (23, 0xffffd600), (23, 0xffffd800),
    (21, 0xffff0000), (21, 0xffff0800), (22, 0xffff8000), (21, 0xffff1000), (23, 0xffffda00),
    (22, 0xffff8400), (23, 0xffffdc00), (23, 0xffffde00), (20, 0xfffea000), (22, 0xffff8800),
    (22, 0xffff8c00), (22, 0xffff9000), (23, 0xffffe000), (22, 0xffff9400), (22, 0xffff9800),
    (23, 0xffffe200), (26, 0xfffff800), (26, 0xfffff840), (20, 0xfffeb000), (19, 0xfffe2000),
    (22, 0xffff9c00), (23, 0xffffe400), (22, 0xffffa000), (25, 0xfffff600), (26, 0xfffff880),
    (26, 0xfffff8c0), (26, 0xfffff900), (27, 0xfffffbc0), (27, 0xfffffbe0), (26, 0xfffff940),
    (24, 0xfffff100), (25, 0xfffff680), (19, 0xfffe4000), (21, 0xffff1800), (26, 0xfffff980),
    (27, 0xfffffc00), (27, 0xfffffc20), (26, 0xfffff9c0), (27, 0xfffffc40), (24, 0xfffff200),
    (21, 0xffff2000), (21, 0xffff2800), (26, 0xfffffa00), (26, 0xfffffa40), (28, 0xffffffd0),
    (27, 0xfffffc60), (27, 0xfffffc80), (27, 0xfffffca0), (20, 0xfffec000), (24, 0xfffff300),
    (20, 0xfffed000), (21, 0xffff3000), (22, 0xffffa400), (21, 0xffff3800), (21, 0xffff4000),
    (23, 0xffffe600), (22, 0xffffa800), (22, 0xffffac00), (25, 0xfffff700), (25, 0xfffff780),
    (24, 0xfffff400), (24, 0xfffff500), (26, 0xfffffa80), (23, 0xffffe800), (26, 0xfffffac0),
    (27, 0xfffffcc0), (26, 0xfffffb00), (26, 0xfffffb40), (27, 0xfffffce0), (27, 0xfffffd00),
    (27, 0xfffffd20), (27, 0xfffffd40), (27, 0xfffffd60), (28, 0xffffffe0), (27, 0xfffffd80),
    (27, 0xfffffda0), (27, 0xfffffdc0), (27, 0xfffffde0), (27, 0xfffffe00), (26, 0xfffffb80),
    (30, 0xfffffffc)]

/-- `huff_decode_table`, a pair of numbers for each state: the entries for the first eight values of
four bits in one, those for the other eight in the other, from the most significant digits on. An
entry is the `fstate` in four hexadecimal digits and the `sym` in two. -/
def huffDecodeTable : List (Nat × Nat) :=
  [(0x000400_000500_000700_000800_000b00_000c00_001000_001300,
      0x001900_001c00_002000_002300_002a00_003100_003900_404000),
    (0xc00030_c00031_c00032_c00061_c00063_c00065_c00069_c0006f,
      0xc00073_c00074_000d00_000e00_001100_001200_001400_001500),
    (0x800130_c01630_800131_c01631_800132_c01632_800161_c01661,
      0x800163_c01663_800165_c01665_800169_c01669_80016f_c0166f),
    (0x800230_800930_801730_c02830_800231_800931_801731_c02831,
      0x800232_800932_801732_c02832_800261_800961_801761_c02861),
    (0x800330_800630_800a30_800f30_801830_801f30_802930_c03830,
      0x800331_800631_800a31_800f31_801831_801f31_802931_c03831),
    (0x800332_800632_800a32_800f32_801832_801f32_802932_c03832,
      0x800361_800661_800a61_800f61_801861_801f61_802961_c03861),
    (0x800263_800963_801763_c02863_800265_800965_801765_c02865,
      0x800269_800969_801769_c02869_80026f_80096f_80176f_c0286f),
    (0x800363_800663_800a63_800f63_801863_801f63_802963_c03863,
      0x800365_800665_800a65_800f65_801865_801f65_802965_c03865),
    (0x800369_800669_800a69_800f69_801869_801f69_802969_c03869,
      0x80036f_80066f_800a6f_800f6f_80186f_801f6f_80296f_c0386f),
    (0x800173_c01673_800174_c01674_c00020_c00025_c0002d_c0002e,
      0xc0002f_c00033_c00034_c00035_c00036_c00037_c00038_c00039),
    (0x800273_800973_801773_c02873_800274_800974_801774_c02874,
      0x800120_c01620_800125_c01625_80012d_c0162d_80012e_c0162e),
    (0x800373_800673_800a73_800f73_801873_801f73_802973_c03873,
      0x800374_800674_800a74_800f74_801874_801f74_802974_c03874),
    (0x800220_800920_801720_c02820_800225_800925_801725_c02825,
      0x80022d_80092d_80172d_c0282d_80022e_80092e_80172e_c0282e),
    (0x800320_800620_800a20_800f20_801820_801f20_802920_c03820,
      0x800325_800625_800a25_800f25_801825_801f25_802925_c03825),
    (0x80032d_80062d_800a2d_800f2d_80182d_801f2d_80292d_c0382d,
      0x80032e_80062e_800a2e_800f2e_80182e_801f2e_80292e_c0382e),
    (0x80012f_c0162f_800133_c01633_800134_c01634_800135_c01635,
      0x800136_c01636_800137_c01637_800138_c01638_800139_c01639),
    (0x80022f_80092f_80172f_c0282f_800233_800933_801733_c02833,
      0x800234_800934_801734_c02834_800235_800935_801735_c02835),
    (0x80032f_80062f_800a2f_800f2f_80182f_801f2f_80292f_c0382f,
      0x800333_800633_800a33_800f33_801833_801f33_802933_c03833),
    (0x800334_800634_800a34_800f34_801834_801f34_802934_c03834,
      0x800335_800635_800a35_800f35_801835_801f35_802935_c03835),
    (0x800236_800936_801736_c02836_800237_800937_801737_c02837,
      0x800238_800938_801738_c02838_800239_800939_801739_c02839),
    (0x800336_800636_800a36_800f36_801836_801f36_802936_c03836,
      0x800337_800637_800a37_800f37_801837_801f37_802937_c03837),
    (0x800338_800638_800a38_800f38_801838_801f38_802938_c03838,
      0x800339_800639_800a39_800f39_801839_801f39_802939_c03839),
    (0x001a00_001b00_001d00_001e00_002100_002200_002400_002500,
      0x002b00_002e00_003200_003500_003a00_003d00_004100_404400),
    (0xc0003d_c00041_c0005f_c00062_c00064_c00066_c00067_c00068,
      0xc0006c_c0006d_c0006e_c00070_c00072_c00075_002600_002700),
    (0x80013d_c0163d_800141_c01641_80015f_c0165f_800162_c01662,
      0x800164_c01664_800166_c01666_800167_c01667_800168_c01668),
    (0x80023d_80093d_80173d_c0283d_800241_800941_801741_c02841,
      0x80025f_80095f_80175f_c0285f_800262_800962_801762_c02862),
    (0x80033d_80063d_800a3d_800f3d_80183d_801f3d_80293d_c0383d,
      0x800341_800641_800a41_800f41_801841_801f41_802941_c03841),
    (0x80035f_80065f_800a5f_800f5f_80185f_801f5f_80295f_c0385f,
      0x800362_800662_800a62_800f62_801862_801f62_802962_c03862),
    (0x800264_800964_801764_c02864_800266_800966_801766_c02866,
      0x800267_800967_801767_c02867_800268_800968_801768_c02868),
    (0x800364_800664_800a64_800f64_801864_801f64_802964_c03864,
      0x800366_800666_800a66_800f66_801866_801f66_802966_c03866),
    (0x800367_800667_800a67_800f67_801867_801f67_802967_c03867,
      0x800368_800668_800a68_800f68_801868_801f68_802968_c03868),
    (0x80016c_c0166c_80016d_c0166d_80016e_c0166e_800170_c01670,
      0x800172_c01672_800175_c01675_c0003a_c00042_c00043_c00044),
    (0x80026c_80096c_80176c_c0286c_80026d_80096d_80176d_c0286d,
      0x80026e_80096e_80176e_c0286e_800270_800970_801770_c02870),
    (0x80036c_80066c_800a6c_800f6c_80186c_801f6c_80296c_c0386c,
      0x80036d_80066d_800a6d_800f6d_80186d_801f6d_80296d_c0386d),
    (0x80036e_80066e_800a6e_800f6e_80186e_801f6e_80296e_c0386e,
      0x800370_800670_800a70_800f70_801870_801f70_802970_c03870),
    (0x800272_800972_801772_c02872_800275_800975_801775_c02875,
      0x80013a_c0163a_800142_c01642_800143_c01643_800144_c01644),
    (0x800372_800672_800a72_800f72_801872_801f72_802972_c03872,
      0x800375_800675_800a75_800f75_801875_801f75_802975_c03875),
    (0x80023a_80093a_80173a_c0283a_800242_800942_801742_c02842,
      0x800243_800943_801743_c02843_800244_800944_801744_c02844),
    (0x80033a_80063a_800a3a_800f3a_80183a_801f3a_80293a_c0383a,
      0x800342_800642_800a42_800f42_801842_801f42_802942_c03842),
    (0x800343_800643_800a43_800f43_801843_801f43_802943_c03843,
      0x800344_800644_800a44_800f44_801844_801f44_802944_c03844),
    (0x002c00_002d00_002f00_003000_003300_003400_003600_003700,
      0x003b00_003c00_003e00_003f00_004200_004300_004500_404800),
    (0xc00045_c00046_c00047_c00048_c00049_c0004a_c0004b_c0004c,
      0xc0004d_c0004e_c0004f_c00050_c00051_c00052_c00053_c00054),
    (0x800145_c01645_800146_c01646_800147_c01647_800148_c01648,
      0x800149_c01649_80014a_c0164a_80014b_c0164b_80014c_c0164c),
    (0x800245_800945_801745_c02845_800246_800946_801746_c02846,
      0x800247_800947_801747_c02847_800248_800948_801748_c02848),
    (0x800345_800645_800a45_800f45_801845_801f45_802945_c03845,
      0x800346_800646_800a46_800f46_801846_801f46_802946_c03846),
    (0x800347_800647_800a47_800f47_801847_801f47_802947_c03847,
      0x800348_800648_800a48_800f48_801848_801f48_802948_c03848),
    (0x800249_800949_801749_c02849_80024a_80094a_80174a_c0284a,
      0x80024b_80094b_80174b_c0284b_80024c_80094c_80174c_c0284c),
    (0x800349_800649_800a49_800f49_801849_801f49_802949_c03849,
      0x80034a_80064a_800a4a_800f4a_80184a_801f4a_80294a_c0384a),
    (0x80034b_80064b_800a4b_800f4b_80184b_801f4b_80294b_c0384b,
      0x80034c_80064c_800a4c_800f4c_80184c_801f4c_80294c_c0384c),
    (0x80014d_c0164d_80014e_c0164e_80014f_c0164f_800150_c01650,
      0x800151_c01651_800152_c01652_800153_c01653_800154_c01654),
    (0x80024d_80094d_80174d_c0284d_80024e_80094e_80174e_c0284e,
      0x80024f_80094f_80174f_c0284f_800250_800950_801750_c02850),
    (0x80034d_80064d_800a4d_800f4d_80184d_801f4d_80294d_c0384d,
      0x80034e_80064e_800a4e_800f4e_80184e_801f4e_80294e_c0384e),
    (0x80034f_80064f_800a4f_800f4f_80184f_801f4f_80294f_c0384f,
      0x800350_800650_800a50_800f50_801850_801f50_802950_c03850),
    (0x800251_800951_801751_c02851_800252_800952_801752_c02852,
      0x800253_800953_801753_c02853_800254_800954_801754_c02854),
    (0x800351_800651_800a51_800f51_801851_801f51_802951_c03851,
      0x800352_800652_800a52_800f52_801852_801f52_802952_c03852),
    (0x800353_800653_800a53_800f53_801853_801f53_802953_c03853,
      0x800354_800654_800a54_800f54_801854_801f54_802954_c03854),
    (0xc00055_c00056_c00057_c00059_c0006a_c0006b_c00071_c00076,
      0xc00077_c00078_c00079_c0007a_004600_004700_004900_404a00),
    (0x800155_c01655_800156_c01656_800157_c01657_800159_c01659,
      0x80016a_c0166a_80016b_c0166b_800171_c01671_800176_c01676),
    (0x800255_800955_801755_c02855_800256_800956_801756_c02856,
      0x800257_800957_801757_c02857_800259_800959_801759_c02859),
    (0x800355_800655_800a55_800f55_801855_801f55_802955_c03855,
      0x800356_800656_800a56_800f56_801856_801f56_802956_c03856),
    (0x800357_800657_800a57_800f57_801857_801f57_802957_c03857,
      0x800359_800659_800a59_800f59_801859_801f59_802959_c03859),
    (0x80026a_80096a_80176a_c0286a_80026b_80096b_80176b_c0286b,
      0x800271_800971_801771_c02871_800276_800976_801776_c02876),
    (0x80036a_80066a_800a6a_800f6a_80186a_801f6a_80296a_c0386a,
      0x80036b_80066b_800a6b_800f6b_80186b_801f6b_80296b_c0386b),
    (0x800371_800671_800a71_800f71_801871_801f71_802971_c03871,
      0x800376_800676_800a76_800f76_801876_801f76_802976_c03876),
    (0x800177_c01677_800178_c01678_800179_c01679_80017a_c0167a,
      0xc00026_c0002a_c0002c_c0003b_c00058_c0005a_004b00_004e00),
    (0x800277_800977_801777_c02877_800278_800978_801778_c02878,
      0x800279_800979_801779_c02879_80027a_80097a_80177a_c0287a),
    (0x800377_800677_800a77_800f77_801877_801f77_802977_c03877,
      0x800378_800678_800a78_800f78_801878_801f78_802978_c03878),
    (0x800379_800679_800a79_800f79_801879_801f79_802979_c03879,
      0x80037a_80067a_800a7a_800f7a_80187a_801f7a_80297a_c0387a),
    (0x800126_c01626_80012a_c0162a_80012c_c0162c_80013b_c0163b,
      0x800158_c01658_80015a_c0165a_004c00_004d00_004f00_005100),
    (0x800226_800926_801726_c02826_80022a_80092a_80172a_c0282a,
      0x80022c_80092c_80172c_c0282c_80023b_80093b_80173b_c0283b),
    (0x800326_800626_800a26_800f26_801826_801f26_802926_c03826,
      0x80032a_80062a_800a2a_800f2a_80182a_801f2a_80292a_c0382a),
    (0x80032c_80062c_800a2c_800f2c_80182c_801f2c_80292c_c0382c,
      0x80033b_80063b_800a3b_800f3b_80183b_801f3b_80293b_c0383b),
    (0x800258_800958_801758_c02858_80025a_80095a_80175a_c0285a,
      0xc00021_c00022_c00028_c00029_c0003f_005000_005200_005400),
    (0x800358_800658_800a58_800f58_801858_801f58_802958_c03858,
      0x80035a_80065a_800a5a_800f5a_80185a_801f5a_80295a_c0385a),
    (0x800121_c01621_800122_c01622_800128_c01628_800129_c01629,
      0x80013f_c0163f_c00027_c0002b_c0007c_005300_005500_005800),
    (0x800221_800921_801721_c02821_800222_800922_801722_c02822,
      0x800228_800928_801728_c02828_800229_800929_801729_c02829),
    (0x800321_800621_800a21_800f21_801821_801f21_802921_c03821,
      0x800322_800622_800a22_800f22_801822_801f22_802922_c03822),
    (0x800328_800628_800a28_800f28_801828_801f28_802928_c03828,
      0x800329_800629_800a29_800f29_801829_801f29_802929_c03829),
    (0x80023f_80093f_80173f_c0283f_800127_c01627_80012b_c0162b,
      0x80017c_c0167c_c00023_c0003e_005600_005700_005900_005a00),
    (0x80033f_80063f_800a3f_800f3f_80183f_801f3f_80293f_c0383f,
      0x800227_800927_801727_c02827_80022b_80092b_80172b_c0282b),
    (0x800327_800627_800a27_800f27_801827_801f27_802927_c03827,
      0x80032b_80062b_800a2b_800f2b_80182b_801f2b_80292b_c0382b),
    (0x80027c_80097c_80177c_c0287c_800123_c01623_80013e_c0163e,
      0xc00000_c00024_c00040_c0005b_c0005d_c0007e_005b00_005c00),
    (0x80037c_80067c_800a7c_800f7c_80187c_801f7c_80297c_c0387c,
      0x800223_800923_801723_c02823_80023e_80093e_80173e_c0283e),
    (0x800323_800623_800a23_800f23_801823_801f23_802923_c03823,
      0x80033e_80063e_800a3e_800f3e_80183e_801f3e_80293e_c0383e),
    (0x800100_c01600_800124_c01624_800140_c01640_80015b_c0165b,
      0x80015d_c0165d_80017e_c0167e_c0005e_c0007d_005d00_005e00),
    (0x800200_800900_801700_c02800_800224_800924_801724_c02824,
      0x800240_800940_801740_c02840_80025b_80095b_80175b_c0285b),
    (0x800300_800600_800a00_800f00_801800_801f00_802900_c03800,
      0x800324_800624_800a24_800f24_801824_801f24_802924_c03824),
    (0x800340_800640_800a40_800f40_801840_801f40_802940_c03840,
      0x80035b_80065b_800a5b_800f5b_80185b_801f5b_80295b_c0385b),
    (0x80025d_80095d_80175d_c0285d_80027e_80097e_80177e_c0287e,
      0x80015e_c0165e_80017d_c0167d_c0003c_c00060_c0007b_005f00),
    (0x80035d_80065d_800a5d_800f5d_80185d_801f5d_80295d_c0385d,
      0x80037e_80067e_800a7e_800f7e_80187e_801f7e_80297e_c0387e),
    (0x80025e_80095e_80175e_c0285e_80027d_80097d_80177d_c0287d,
      0x80013c_c0163c_800160_c01660_80017b_c0167b_006000_006e00),
    (0x80035e_80065e_800a5e_800f5e_80185e_801f5e_80295e_c0385e,
      0x80037d_80067d_800a7d_800f7d_80187d_801f7d_80297d_c0387d),
    (0x80023c_80093c_80173c_c0283c_800260_800960_801760_c02860,
      0x80027b_80097b_80177b_c0287b_006100_006500_006f00_008500),
    (0x80033c_80063c_800a3c_800f3c_80183c_801f3c_80293c_c0383c,
      0x800360_800660_800a60_800f60_801860_801f60_802960_c03860),
    (0x80037b_80067b_800a7b_800f7b_80187b_801f7b_80297b_c0387b,
      0x006200_006300_006600_006900_007000_007700_008600_009900),
    (0xc0005c_c000c3_c000d0_006400_006700_006800_006a00_006b00,
      0x007100_007400_007800_007e00_008700_008e00_009a00_00a900),
    (0x80015c_c0165c_8001c3_c016c3_8001d0_c016d0_c00080_c00082,
      0xc00083_c000a2_c000b8_c000c2_c000e0_c000e2_006c00_006d00),
    (0x80025c_80095c_80175c_c0285c_8002c3_8009c3_8017c3_c028c3,
      0x8002d0_8009d0_8017d0_c028d0_800180_c01680_800182_c01682),
    (0x80035c_80065c_800a5c_800f5c_80185c_801f5c_80295c_c0385c,
      0x8003c3_8006c3_800ac3_800fc3_8018c3_801fc3_8029c3_c038c3),
    (0x8003d0_8006d0_800ad0_800fd0_8018d0_801fd0_8029d0_c038d0,
      0x800280_800980_801780_c02880_800282_800982_801782_c02882),
    (0x800380_800680_800a80_800f80_801880_801f80_802980_c03880,
      0x800382_800682_800a82_800f82_801882_801f82_802982_c03882),
    (0x800183_c01683_8001a2_c016a2_8001b8_c016b8_8001c2_c016c2,
      0x8001e0_c016e0_8001e2_c016e2_c00099_c000a1_c000a7_c000ac),
    (0x800283_800983_801783_c02883_8002a2_8009a2_8017a2_c028a2,
      0x8002b8_8009b8_8017b8_c028b8_8002c2_8009c2_8017c2_c028c2),
    (0x800383_800683_800a83_800f83_801883_801f83_802983_c03883,
      0x8003a2_8006a2_800aa2_800fa2_8018a2_801fa2_8029a2_c038a2),
    (0x8003b8_8006b8_800ab8_800fb8_8018b8_801fb8_8029b8_c038b8,
      0x8003c2_8006c2_800ac2_800fc2_8018c2_801fc2_8029c2_c038c2),
    (0x8002e0_8009e0_8017e0_c028e0_8002e2_8009e2_8017e2_c028e2,
      0x800199_c01699_8001a1_c016a1_8001a7_c016a7_8001ac_c016ac),
    (0x8003e0_8006e0_800ae0_800fe0_8018e0_801fe0_8029e0_c038e0,
      0x8003e2_8006e2_800ae2_800fe2_8018e2_801fe2_8029e2_c038e2),
    (0x800299_800999_801799_c02899_8002a1_8009a1_8017a1_c028a1,
      0x8002a7_8009a7_8017a7_c028a7_8002ac_8009ac_8017ac_c028ac),
    (0x800399_800699_800a99_800f99_801899_801f99_802999_c03899,
      0x8003a1_8006a1_800aa1_800fa1_8018a1_801fa1_8029a1_c038a1),
    (0x8003a7_8006a7_800aa7_800fa7_8018a7_801fa7_8029a7_c038a7,
      0x8003ac_8006ac_800aac_800fac_8018ac_801fac_8029ac_c038ac),
    (0x007200_007300_007500_007600_007900_007b00_007f00_008200,
      0x008800_008b00_008f00_009200_009b00_00a200_00aa00_00b400),
    (0xc000b0_c000b1_c000b3_c000d1_c000d8_c000d9_c000e3_c000e5,
      0xc000e6_007a00_007c00_007d00_008000_008100_008300_008400),
    (0x8001b0_c016b0_8001b1_c016b1_8001b3_c016b3_8001d1_c016d1,
      0x8001d8_c016d8_8001d9_c016d9_8001e3_c016e3_8001e5_c016e5),
    (0x8002b0_8009b0_8017b0_c028b0_8002b1_8009b1_8017b1_c028b1,
      0x8002b3_8009b3_8017b3_c028b3_8002d1_8009d1_8017d1_c028d1),
    (0x8003b0_8006b0_800ab0_800fb0_8018b0_801fb0_8029b0_c038b0,
      0x8003b1_8006b1_800ab1_800fb1_8018b1_801fb1_8029b1_c038b1),
    (0x8003b3_8006b3_800ab3_800fb3_8018b3_801fb3_8029b3_c038b3,
      0x8003d1_8006d1_800ad1_800fd1_8018d1_801fd1_8029d1_c038d1),
    (0x8002d8_8009d8_8017d8_c028d8_8002d9_8009d9_8017d9_c028d9,
      0x8002e3_8009e3_8017e3_c028e3_8002e5_8009e5_8017e5_c028e5),
    (0x8003d8_8006d8_800ad8_800fd8_8018d8_801fd8_8029d8_c038d8,
      0x8003d9_8006d9_800ad9_800fd9_8018d9_801fd9_8029d9_c038d9),
    (0x8003e3_8006e3_800ae3_800fe3_8018e3_801fe3_8029e3_c038e3,
      0x8003e5_8006e5_800ae5_800fe5_8018e5_801fe5_8029e5_c038e5),
    (0x8001e6_c016e6_c00081_c00084_c00085_c00086_c00088_c00092,
      0xc0009a_c0009c_c000a0_c000a3_c000a4_c000a9_c000aa_c000ad),
    (0x8002e6_8009e6_8017e6_c028e6_800181_c01681_800184_c01684,
      0x800185_c01685_800186_c01686_800188_c01688_800192_c01692),
    (0x8003e6_8006e6_800ae6_800fe6_8018e6_801fe6_8029e6_c038e6,
      0x800281_800981_801781_c02881_800284_800984_801784_c02884),
    (0x800381_800681_800a81_800f81_801881_801f81_802981_c03881,
      0x800384_800684_800a84_800f84_801884_801f84_802984_c03884),
    (0x800285_800985_801785_c02885_800286_800986_801786_c02886,
      0x800288_800988_801788_c02888_800292_800992_801792_c02892),
    (0x800385_800685_800a85_800f85_801885_801f85_802985_c03885,
      0x800386_800686_800a86_800f86_801886_801f86_802986_c03886),
    (0x800388_800688_800a88_800f88_801888_801f88_802988_c03888,
      0x800392_800692_800a92_800f92_801892_801f92_802992_c03892),
    (0x80019a_c0169a_80019c_c0169c_8001a0_c016a0_8001a3_c016a3,
      0x8001a4_c016a4_8001a9_c016a9_8001aa_c016aa_8001ad_c016ad),
    (0x80029a_80099a_80179a_c0289a_80029c_80099c_80179c_c0289c,
      0x8002a0_8009a0_8017a0_c028a0_8002a3_8009a3_8017a3_c028a3),
    (0x80039a_80069a_800a9a_800f9a_80189a_801f9a_80299a_c0389a,
      0x80039c_80069c_800a9c_800f9c_80189c_801f9c_80299c_c0389c),
    (0x8003a0_8006a0_800aa0_800fa0_8018a0_801fa0_8029a0_c038a0,
      0x8003a3_8006a3_800aa3_800fa3_8018a3_801fa3_8029a3_c038a3),
    (0x8002a4_8009a4_8017a4_c028a4_8002a9_8009a9_8017a9_c028a9,
      0x8002aa_8009aa_8017aa_c028aa_8002ad_8009ad_8017ad_c028ad),
    (0x8003a4_8006a4_800aa4_800fa4_8018a4_801fa4_8029a4_c038a4,
      0x8003a9_8006a9_800aa9_800fa9_8018a9_801fa9_8029a9_c038a9),
    (0x8003aa_8006aa_800aaa_800faa_8018aa_801faa_8029aa_c038aa,
      0x8003ad_8006ad_800aad_800fad_8018ad_801fad_8029ad_c038ad),
    (0x008900_008a00_008c00_008d00_009000_009100_009300_009600,
      0x009c00_009f00_00a300_00a600_00ab00_00ae00_00b500_00be00),
    (0xc000b2_c000b5_c000b9_c000ba_c000bb_c000bd_c000be_c000c4,
      0xc000c6_c000e4_c000e8_c000e9_009400_009500_009700_009800),
    (0x8001b2_c016b2_8001b5_c016b5_8001b9_c016b9_8001ba_c016ba,
      0x8001bb_c016bb_8001bd_c016bd_8001be_c016be_8001c4_c016c4),
    (0x8002b2_8009b2_8017b2_c028b2_8002b5_8009b5_8017b5_c028b5,
      0x8002b9_8009b9_8017b9_c028b9_8002ba_8009ba_8017ba_c028ba),
    (0x8003b2_8006b2_800ab2_800fb2_8018b2_801fb2_8029b2_c038b2,
      0x8003b5_8006b5_800ab5_800fb5_8018b5_801fb5_8029b5_c038b5),
    (0x8003b9_8006b9_800ab9_800fb9_8018b9_801fb9_8029b9_c038b9,
      0x8003ba_8006ba_800aba_800fba_8018ba_801fba_8029ba_c038ba),
    (0x8002bb_8009bb_8017bb_c028bb_8002bd_8009bd_8017bd_c028bd,
      0x8002be_8009be_8017be_c028be_8002c4_8009c4_8017c4_c028c4),
    (0x8003bb_8006bb_800abb_800fbb_8018bb_801fbb_8029bb_c038bb,
      0x8003bd_8006bd_800abd_800fbd_8018bd_801fbd_8029bd_c038bd),
    (0x8003be_8006be_800abe_800fbe_8018be_801fbe_8029be_c038be,
      0x8003c4_8006c4_800ac4_800fc4_8018c4_801fc4_8029c4_c038c4),
    (0x8001c6_c016c6_8001e4_c016e4_8001e8_c016e8_8001e9_c016e9,
      0xc00001_c00087_c00089_c0008a_c0008b_c0008c_c0008d_c0008f),
    (0x8002c6_8009c6_8017c6_c028c6_8002e4_8009e4_8017e4_c028e4,
      0x8002e8_8009e8_8017e8_c028e8_8002e9_8009e9_8017e9_c028e9),
    (0x8003c6_8006c6_800ac6_800fc6_8018c6_801fc6_8029c6_c038c6,
      0x8003e4_8006e4_800ae4_800fe4_8018e4_801fe4_8029e4_c038e4),
    (0x8003e8_8006e8_800ae8_800fe8_8018e8_801fe8_8029e8_c038e8,
      0x8003e9_8006e9_800ae9_800fe9_8018e9_801fe9_8029e9_c038e9),
    (0x800101_c01601_800187_c01687_800189_c01689_80018a_c0168a,
      0x80018b_c0168b_80018c_c0168c_80018d_c0168d_80018f_c0168f),
    (0x800201_800901_801701_c02801_800287_800987_801787_c02887,
      0x800289_800989_801789_c02889_80028a_80098a_80178a_c0288a),
    (0x800301_800601_800a01_800f01_801801_801f01_802901_c03801,
      0x800387_800687_800a87_800f87_801887_801f87_802987_c03887),
    (0x800389_800689_800a89_800f89_801889_801f89_802989_c03889,
      0x80038a_80068a_800a8a_800f8a_80188a_801f8a_80298a_c0388a),
    (0x80028b_80098b_80178b_c0288b_80028c_80098c_80178c_c0288c,
      0x80028d_80098d_80178d_c0288d_80028f_80098f_80178f_c0288f),
    (0x80038b_80068b_800a8b_800f8b_80188b_801f8b_80298b_c0388b,
      0x80038c_80068c_800a8c_800f8c_80188c_801f8c_80298c_c0388c),
    (0x80038d_80068d_800a8d_800f8d_80188d_801f8d_80298d_c0388d,
      0x80038f_80068f_800a8f_800f8f_80188f_801f8f_80298f_c0388f),
    (0x009d00_009e00_00a000_00a100_00a400_00a500_00a700_00a800,
      0x00ac00_00ad00_00af00_00b100_00b600_00b900_00bf00_00cf00),
    (0xc00093_c00095_c00096_c00097_c00098_c0009b_c0009d_c0009e,
      0xc000a5_c000a6_c000a8_c000ae_c000af_c000b4_c000b6_c000b7),
    (0x800193_c01693_800195_c01695_800196_c01696_800197_c01697,
      0x800198_c01698_80019b_c0169b_80019d_c0169d_80019e_c0169e),
    (0x800293_800993_801793_c02893_800295_800995_801795_c02895,
      0x800296_800996_801796_c02896_800297_800997_801797_c02897),
    (0x800393_800693_800a93_800f93_801893_801f93_802993_c03893,
      0x800395_800695_800a95_800f95_801895_801f95_802995_c03895),
    (0x800396_800696_800a96_800f96_801896_801f96_802996_c03896,
      0x800397_800697_800a97_800f97_801897_801f97_802997_c03897),
    (0x800298_800998_801798_c02898_80029b_80099b_80179b_c0289b,
      0x80029d_80099d_80179d_c0289d_80029e_80099e_80179e_c0289e),
    (0x800398_800698_800a98_800f98_801898_801f98_802998_c03898,
      0x80039b_80069b_800a9b_800f9b_80189b_801f9b_80299b_c0389b),
    (0x80039d_80069d_800a9d_800f9d_80189d_801f9d_80299d_c0389d,
      0x80039e_80069e_800a9e_800f9e_80189e_801f9e_80299e_c0389e),
    (0x8001a5_c016a5_8001a6_c016a6_8001a8_c016a8_8001ae_c016ae,
      0x8001af_c016af_8001b4_c016b4_8001b6_c016b6_8001b7_c016b7),
    (0x8002a5_8009a5_8017a5_c028a5_8002a6_8009a6_8017a6_c028a6,
      0x8002a8_8009a8_8017a8_c028a8_8002ae_8009ae_8017ae_c028ae),
    (0x8003a5_8006a5_800aa5_800fa5_8018a5_801fa5_8029a5_c038a5,
      0x8003a6_8006a6_800aa6_800fa6_8018a6_801fa6_8029a6_c038a6),
    (0x8003a8_8006a8_800aa8_800fa8_8018a8_801fa8_8029a8_c038a8,
      0x8003ae_8006ae_800aae_800fae_8018ae_801fae_8029ae_c038ae),
    (0x8002af_8009af_8017af_c028af_8002b4_8009b4_8017b4_c028b4,
      0x8002b6_8009b6_8017b6_c028b6_8002b7_8009b7_8017b7_c028b7),
    (0x8003af_8006af_800aaf_800faf_8018af_801faf_8029af_c038af,
      0x8003b4_8006b4_800ab4_800fb4_8018b4_801fb4_8029b4_c038b4),
    (0x8003b6_8006b6_800ab6_800fb6_8018b6_801fb6_8029b6_c038b6,
      0x8003b7_8006b7_800ab7_800fb7_8018b7_801fb7_8029b7_c038b7),
    (0xc000bc_c000bf_c000c5_c000e7_c000ef_00b000_00b200_00b300,
      0x00b700_00b800_00ba00_00bb00_00c000_00c700_00d000_00df00),
    (0x8001bc_c016bc_8001bf_c016bf_8001c5_c016c5_8001e7_c016e7,
      0x8001ef_c016ef_c00009_c0008e_c00090_c00091_c00094_c0009f),
    (0x8002bc_8009bc_8017bc_c028bc_8002bf_8009bf_8017bf_c028bf,
      0x8002c5_8009c5_8017c5_c028c5_8002e7_8009e7_8017e7_c028e7),
    (0x8003bc_8006bc_800abc_800fbc_8018bc_801fbc_8029bc_c038bc,
      0x8003bf_8006bf_800abf_800fbf_8018bf_801fbf_8029bf_c038bf),
    (0x8003c5_8006c5_800ac5_800fc5_8018c5_801fc5_8029c5_c038c5,
      0x8003e7_8006e7_800ae7_800fe7_8018e7_801fe7_8029e7_c038e7),
    (0x8002ef_8009ef_8017ef_c028ef_800109_c01609_80018e_c0168e,
      0x800190_c01690_800191_c01691_800194_c01694_80019f_c0169f),
    (0x8003ef_8006ef_800aef_800fef_8018ef_801fef_8029ef_c038ef,
      0x800209_800909_801709_c02809_80028e_80098e_80178e_c0288e),
    (0x800309_800609_800a09_800f09_801809_801f09_802909_c03809,
      0x80038e_80068e_800a8e_800f8e_80188e_801f8e_80298e_c0388e),
    (0x800290_800990_801790_c02890_800291_800991_801791_c02891,
      0x800294_800994_801794_c02894_80029f_80099f_80179f_c0289f),
    (0x800390_800690_800a90_800f90_801890_801f90_802990_c03890,
      0x800391_800691_800a91_800f91_801891_801f91_802991_c03891),
    (0x800394_800694_800a94_800f94_801894_801f94_802994_c03894,
      0x80039f_80069f_800a9f_800f9f_80189f_801f9f_80299f_c0389f),
    (0xc000ab_c000ce_c000d7_c000e1_c000ec_c000ed_00bc00_00bd00,
      0x00c100_00c400_00c800_00cb00_00d100_00d800_00e000_00ee00),
    (0x8001ab_c016ab_8001ce_c016ce_8001d7_c016d7_8001e1_c016e1,
      0x8001ec_c016ec_8001ed_c016ed_c000c7_c000cf_c000ea_c000eb),
    (0x8002ab_8009ab_8017ab_c028ab_8002ce_8009ce_8017ce_c028ce,
      0x8002d7_8009d7_8017d7_c028d7_8002e1_8009e1_8017e1_c028e1),
    (0x8003ab_8006ab_800aab_800fab_8018ab_801fab_8029ab_c038ab,
      0x8003ce_8006ce_800ace_800fce_8018ce_801fce_8029ce_c038ce),
    (0x8003d7_8006d7_800ad7_800fd7_8018d7_801fd7_8029d7_c038d7,
      0x8003e1_8006e1_800ae1_800fe1_8018e1_801fe1_8029e1_c038e1),
    (0x8002ec_8009ec_8017ec_c028ec_8002ed_8009ed_8017ed_c028ed,
      0x8001c7_c016c7_8001cf_c016cf_8001ea_c016ea_8001eb_c016eb),
    (0x8003ec_8006ec_800aec_800fec_8018ec_801fec_8029ec_c038ec,
      0x8003ed_8006ed_800aed_800fed_8018ed_801fed_8029ed_c038ed),
    (0x8002c7_8009c7_8017c7_c028c7_8002cf_8009cf_8017cf_c028cf,
      0x8002ea_8009ea_8017ea_c028ea_8002eb_8009eb_8017eb_c028eb),
    (0x8003c7_8006c7_800ac7_800fc7_8018c7_801fc7_8029c7_c038c7,
      0x8003cf_8006cf_800acf_800fcf_8018cf_801fcf_8029cf_c038cf),
    (0x8003ea_8006ea_800aea_800fea_8018ea_801fea_8029ea_c038ea,
      0x8003eb_8006eb_800aeb_800feb_8018eb_801feb_8029eb_c038eb),
    (0x00c200_00c300_00c500_00c600_00c900_00ca00_00cc00_00cd00,
      0x00d200_00d500_00d900_00dc00_00e100_00e700_00ef00_00f600),
    (0xc000c0_c000c1_c000c8_c000c9_c000ca_c000cd_c000d2_c000d5,
      0xc000da_c000db_c000ee_c000f0_c000f2_c000f3_c000ff_00ce00),
    (0x8001c0_c016c0_8001c1_c016c1_8001c8_c016c8_8001c9_c016c9,
      0x8001ca_c016ca_8001cd_c016cd_8001d2_c016d2_8001d5_c016d5),
    (0x8002c0_8009c0_8017c0_c028c0_8002c1_8009c1_8017c1_c028c1,
      0x8002c8_8009c8_8017c8_c028c8_8002c9_8009c9_8017c9_c028c9),
    (0x8003c0_8006c0_800ac0_800fc0_8018c0_801fc0_8029c0_c038c0,
      0x8003c1_8006c1_800ac1_800fc1_8018c1_801fc1_8029c1_c038c1),
    (0x8003c8_8006c8_800ac8_800fc8_8018c8_801fc8_8029c8_c038c8,
      0x8003c9_8006c9_800ac9_800fc9_8018c9_801fc9_8029c9_c038c9),
    (0x8002ca_8009ca_8017ca_c028ca_8002cd_8009cd_8017cd_c028cd,
      0x8002d2_8009d2_8017d2_c028d2_8002d5_8009d5_8017d5_c028d5),
    (0x8003ca_8006ca_800aca_800fca_8018ca_801fca_8029ca_c038ca,
      0x8003cd_8006cd_800acd_800fcd_8018cd_801fcd_8029cd_c038cd),
    (0x8003d2_8006d2_800ad2_800fd2_8018d2_801fd2_8029d2_c038d2,
      0x8003d5_8006d5_800ad5_800fd5_8018d5_801fd5_8029d5_c038d5),
    (0x8001da_c016da_8001db_c016db_8001ee_c016ee_8001f0_c016f0,
      0x8001f2_c016f2_8001f3_c016f3_8001ff_c016ff_c000cb_c000cc),
    (0x8002da_8009da_8017da_c028da_8002db_8009db_8017db_c028db,
      0x8002ee_8009ee_8017ee_c028ee_8002f0_8009f0_8017f0_c028f0),
    (0x8003da_8006da_800ada_800fda_8018da_801fda_8029da_c038da,
      0x8003db_8006db_800adb_800fdb_8018db_801fdb_8029db_c038db),
    (0x8003ee_8006ee_800aee_800fee_8018ee_801fee_8029ee_c038ee,
      0x8003f0_8006f0_800af0_800ff0_8018f0_801ff0_8029f0_c038f0),
    (0x8002f2_8009f2_8017f2_c028f2_8002f3_8009f3_8017f3_c028f3,
      0x8002ff_8009ff_8017ff_c028ff_8001cb_c016cb_8001cc_c016cc),
    (0x8003f2_8006f2_800af2_800ff2_8018f2_801ff2_8029f2_c038f2,
      0x8003f3_8006f3_800af3_800ff3_8018f3_801ff3_8029f3_c038f3),
    (0x8003ff_8006ff_800aff_800fff_8018ff_801fff_8029ff_c038ff,
      0x8002cb_8009cb_8017cb_c028cb_8002cc_8009cc_8017cc_c028cc),
    (0x8003cb_8006cb_800acb_800fcb_8018cb_801fcb_8029cb_c038cb,
      0x8003cc_8006cc_800acc_800fcc_8018cc_801fcc_8029cc_c038cc),
    (0x00d300_00d400_00d600_00d700_00da00_00db00_00dd00_00de00,
      0x00e200_00e400_00e800_00eb00_00f000_00f300_00f700_00fa00),
    (0xc000d3_c000d4_c000d6_c000dd_c000de_c000df_c000f1_c000f4,
      0xc000f5_c000f6_c000f7_c000f8_c000fa_c000fb_c000fc_c000fd),
    (0x8001d3_c016d3_8001d4_c016d4_8001d6_c016d6_8001dd_c016dd,
      0x8001de_c016de_8001df_c016df_8001f1_c016f1_8001f4_c016f4),
    (0x8002d3_8009d3_8017d3_c028d3_8002d4_8009d4_8017d4_c028d4,
      0x8002d6_8009d6_8017d6_c028d6_8002dd_8009dd_8017dd_c028dd),
    (0x8003d3_8006d3_800ad3_800fd3_8018d3_801fd3_8029d3_c038d3,
      0x8003d4_8006d4_800ad4_800fd4_8018d4_801fd4_8029d4_c038d4),
    (0x8003d6_8006d6_800ad6_800fd6_8018d6_801fd6_8029d6_c038d6,
      0x8003dd_8006dd_800add_800fdd_8018dd_801fdd_8029dd_c038dd),
    (0x8002de_8009de_8017de_c028de_8002df_8009df_8017df_c028df,
      0x8002f1_8009f1_8017f1_c028f1_8002f4_8009f4_8017f4_c028f4),
    (0x8003de_8006de_800ade_800fde_8018de_801fde_8029de_c038de,
      0x8003df_8006df_800adf_800fdf_8018df_801fdf_8029df_c038df),
    (0x8003f1_8006f1_800af1_800ff1_8018f1_801ff1_8029f1_c038f1,
      0x8003f4_8006f4_800af4_800ff4_8018f4_801ff4_8029f4_c038f4),
    (0x8001f5_c016f5_8001f6_c016f6_8001f7_c016f7_8001f8_c016f8,
      0x8001fa_c016fa_8001fb_c016fb_8001fc_c016fc_8001fd_c016fd),
    (0x8002f5_8009f5_8017f5_c028f5_8002f6_8009f6_8017f6_c028f6,
      0x8002f7_8009f7_8017f7_c028f7_8002f8_8009f8_8017f8_c028f8),
    (0x8003f5_8006f5_800af5_800ff5_8018f5_801ff5_8029f5_c038f5,
      0x8003f6_8006f6_800af6_800ff6_8018f6_801ff6_8029f6_c038f6),
    (0x8003f7_8006f7_800af7_800ff7_8018f7_801ff7_8029f7_c038f7,
      0x8003f8_8006f8_800af8_800ff8_8018f8_801ff8_8029f8_c038f8),
    (0x8002fa_8009fa_8017fa_c028fa_8002fb_8009fb_8017fb_c028fb,
      0x8002fc_8009fc_8017fc_c028fc_8002fd_8009fd_8017fd_c028fd),
    (0x8003fa_8006fa_800afa_800ffa_8018fa_801ffa_8029fa_c038fa,
      0x8003fb_8006fb_800afb_800ffb_8018fb_801ffb_8029fb_c038fb),
    (0x8003fc_8006fc_800afc_800ffc_8018fc_801ffc_8029fc_c038fc,
      0x8003fd_8006fd_800afd_800ffd_8018fd_801ffd_8029fd_c038fd),
    (0xc000fe_00e300_00e500_00e600_00e900_00ea00_00ec00_00ed00,
      0x00f100_00f200_00f400_00f500_00f800_00f900_00fb00_00fc00),
    (0x8001fe_c016fe_c00002_c00003_c00004_c00005_c00006_c00007,
      0xc00008_c0000b_c0000c_c0000e_c0000f_c00010_c00011_c00012),
    (0x8002fe_8009fe_8017fe_c028fe_800102_c01602_800103_c01603,
      0x800104_c01604_800105_c01605_800106_c01606_800107_c01607),
    (0x8003fe_8006fe_800afe_800ffe_8018fe_801ffe_8029fe_c038fe,
      0x800202_800902_801702_c02802_800203_800903_801703_c02803),
    (0x800302_800602_800a02_800f02_801802_801f02_802902_c03802,
      0x800303_800603_800a03_800f03_801803_801f03_802903_c03803),
    (0x800204_800904_801704_c02804_800205_800905_801705_c02805,
      0x800206_800906_801706_c02806_800207_800907_801707_c02807),
    (0x800304_800604_800a04_800f04_801804_801f04_802904_c03804,
      0x800305_800605_800a05_800f05_801805_801f05_802905_c03805),
    (0x800306_800606_800a06_800f06_801806_801f06_802906_c03806,
      0x800307_800607_800a07_800f07_801807_801f07_802907_c03807),
    (0x800108_c01608_80010b_c0160b_80010c_c0160c_80010e_c0160e,
      0x80010f_c0160f_800110_c01610_800111_c01611_800112_c01612),
    (0x800208_800908_801708_c02808_80020b_80090b_80170b_c0280b,
      0x80020c_80090c_80170c_c0280c_80020e_80090e_80170e_c0280e),
    (0x800308_800608_800a08_800f08_801808_801f08_802908_c03808,
      0x80030b_80060b_800a0b_800f0b_80180b_801f0b_80290b_c0380b),
    (0x80030c_80060c_800a0c_800f0c_80180c_801f0c_80290c_c0380c,
      0x80030e_80060e_800a0e_800f0e_80180e_801f0e_80290e_c0380e),
    (0x80020f_80090f_80170f_c0280f_800210_800910_801710_c02810,
      0x800211_800911_801711_c02811_800212_800912_801712_c02812),
    (0x80030f_80060f_800a0f_800f0f_80180f_801f0f_80290f_c0380f,
      0x800310_800610_800a10_800f10_801810_801f10_802910_c03810),
    (0x800311_800611_800a11_800f11_801811_801f11_802911_c03811,
      0x800312_800612_800a12_800f12_801812_801f12_802912_c03812),
    (0xc00013_c00014_c00015_c00017_c00018_c00019_c0001a_c0001b,
      0xc0001c_c0001d_c0001e_c0001f_c0007f_c000dc_c000f9_00fd00),
    (0x800113_c01613_800114_c01614_800115_c01615_800117_c01617,
      0x800118_c01618_800119_c01619_80011a_c0161a_80011b_c0161b),
    (0x800213_800913_801713_c02813_800214_800914_801714_c02814,
      0x800215_800915_801715_c02815_800217_800917_801717_c02817),
    (0x800313_800613_800a13_800f13_801813_801f13_802913_c03813,
      0x800314_800614_800a14_800f14_801814_801f14_802914_c03814),
    (0x800315_800615_800a15_800f15_801815_801f15_802915_c03815,
      0x800317_800617_800a17_800f17_801817_801f17_802917_c03817),
    (0x800218_800918_801718_c02818_800219_800919_801719_c02819,
      0x80021a_80091a_80171a_c0281a_80021b_80091b_80171b_c0281b),
    (0x800318_800618_800a18_800f18_801818_801f18_802918_c03818,
      0x800319_800619_800a19_800f19_801819_801f19_802919_c03819),
    (0x80031a_80061a_800a1a_800f1a_80181a_801f1a_80291a_c0381a,
      0x80031b_80061b_800a1b_800f1b_80181b_801f1b_80291b_c0381b),
    (0x80011c_c0161c_80011d_c0161d_80011e_c0161e_80011f_c0161f,
      0x80017f_c0167f_8001dc_c016dc_8001f9_c016f9_00fe00_00ff00),
    (0x80021c_80091c_80171c_c0281c_80021d_80091d_80171d_c0281d,
      0x80021e_80091e_80171e_c0281e_80021f_80091f_80171f_c0281f),
    (0x80031c_80061c_800a1c_800f1c_80181c_801f1c_80291c_c0381c,
      0x80031d_80061d_800a1d_800f1d_80181d_801f1d_80291d_c0381d),
    (0x80031e_80061e_800a1e_800f1e_80181e_801f1e_80291e_c0381e,
      0x80031f_80061f_800a1f_800f1f_80181f_801f1f_80291f_c0381f),
    (0x80027f_80097f_80177f_c0287f_8002dc_8009dc_8017dc_c028dc,
      0x8002f9_8009f9_8017f9_c028f9_c0000a_c0000d_c00016_010000),
    (0x80037f_80067f_800a7f_800f7f_80187f_801f7f_80297f_c0387f,
      0x8003dc_8006dc_800adc_800fdc_8018dc_801fdc_8029dc_c038dc),
    (0x8003f9_8006f9_800af9_800ff9_8018f9_801ff9_8029f9_c038f9,
      0x80010a_c0160a_80010d_c0160d_800116_c01616_010000_010000),
    (0x80020a_80090a_80170a_c0280a_80020d_80090d_80170d_c0280d,
      0x800216_800916_801716_c02816_010000_010000_010000_010000),
    (0x80030a_80060a_800a0a_800f0a_80180a_801f0a_80290a_c0380a,
      0x80030d_80060d_800a0d_800f0d_80180d_801f0d_80290d_c0380d),
    (0x800316_800616_800a16_800f16_801816_801f16_802916_c03816,
      0x010000_010000_010000_010000_010000_010000_010000_010000),
    (0x010000_010000_010000_010000_010000_010000_010000_010000,
      0x010000_010000_010000_010000_010000_010000_010000_010000)]

end Hfc.Hpack
