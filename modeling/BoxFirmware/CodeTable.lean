import Mathlib.Data.List.Basic
import Mathlib.Data.List.Chain

/-! The conversion table of `cp936.h`, in its order. A row holds eight entries, each as its
Unicode value and its GB2312 code in four hexadecimal digits. -/
namespace BoxFirmware.CodeTable

structure UnicodeGb where
  unicode : UInt16
  gb : UInt16
deriving DecidableEq, Repr

def UnicodeGb.value (e : UnicodeGb) : Nat := e.unicode.toNat

def rowEntries (row : Nat) : List UnicodeGb :=
  [7, 6, 5, 4, 3, 2, 1, 0].map fun k =>
    ⟨.ofNat (row >>> (32 * k + 16)), .ofNat (row >>> (32 * k))⟩

def rows : List Nat := [
  0x4E00D2BB_4E01B6A1_4E03C6DF_4E07CDF2_4E08D5C9_4E09C8FD_4E0AC9CF_4E0BCFC2,
  0x4E0CD8A2_4E0DB2BB_4E0ED3EB_4E10D8A4_4E11B3F3_4E13D7A8_4E14C7D2_4E15D8A7,
  0x4E16CAC0_4E18C7F0_4E19B1FB_4E1AD2B5_4E1BB4D4_4E1CB6AB_4E1DCBBF_4E1ED8A9,
  0x4E22B6AA_4E24C1BD_4E25D1CF_4E27C9A5_4E28D8AD_4E2AB8F6_4E2BD1BE_4E2CE3DC,
  0x4E2DD6D0_4E30B7E1_4E32B4AE_4E34C1D9_4E36D8BC_4E38CDE8_4E39B5A4_4E3ACEAA,
  0x4E3BD6F7_4E3DC0F6_4E3EBED9_4E3FD8AF_4E43C4CB_4E45BEC3_4E47D8B1_4E48C3B4,
  0x4E49D2E5_4E4BD6AE_4E4CCEDA_4E4DD5A7_4E4EBAF5_4E4FB7A6_4E50C0D6_4E52C6B9,
  0x4E53C5D2_4E54C7C7_4E56B9D4_4E58B3CB_4E59D2D2_4E5CD8BF_4E5DBEC5_4E5EC6F2,
  0x4E5FD2B2_4E60CFB0_4E61CFE7_4E66CAE9_4E69D8C0_4E70C2F2_4E71C2D2_4E73C8E9,
  0x4E7EC7AC_4E86C1CB_4E88D3E8_4E89D5F9_4E8BCAC2_4E8CB6FE_4E8DD8A1_4E8ED3DA,
  0x4E8FBFF7_4E91D4C6_4E92BBA5_4E93D8C1_4E94CEE5_4E95BEAE_4E98D8A8_4E9AD1C7,
  0x4E9BD0A9_4E9FD8BD_4EA0D9EF_4EA1CDF6_4EA2BFBA_4EA4BDBB_4EA5BAA5_4EA6D2E0,
  0x4EA7B2FA_4EA8BAE0_4EA9C4B6_4EABCFED_4EACBEA9_4EADCDA4_4EAEC1C1_4EB2C7D7,
  0x4EB3D9F1_4EB5D9F4_4EBAC8CB_4EBBD8E9_4EBFD2DA_4EC0CAB2_4EC1C8CA_4EC2D8EC,
  0x4EC3D8EA_4EC4D8C6_4EC5BDF6_4EC6C6CD_4EC7B3F0_4EC9D8EB_4ECABDF1_4ECBBDE9,
  0x4ECDC8D4_4ECEB4D3_4ED1C2D8_4ED3B2D6_4ED4D7D0_4ED5CACB_4ED6CBFB_4ED7D5CC,
  0x4ED8B8B6_4ED9CFC9_4EDDD9DA_4EDED8F0_4EDFC7AA_4EE1D8EE_4EE3B4FA_4EE4C1EE,
  0x4EE5D2D4_4EE8D8ED_4EEAD2C7_4EEBD8EF_4EECC3C7_4EF0D1F6_4EF2D6D9_4EF3D8F2,
  0x4EF5D8F5_4EF6BCFE_4EF7BCDB_4EFBC8CE_4EFDB7DD_4EFFB7C2_4F01C6F3_4F09D8F8,
  0x4F0AD2C1_4F0DCEE9_4F0EBCBF_4F0FB7FC_4F10B7A5_4F11D0DD_4F17D6DA_4F18D3C5,
  0x4F19BBEF_4F1ABBE1_4F1BD8F1_4F1EC9A1_4F1FCEB0_4F20B4AB_4F22D8F3_4F24C9CB,
  0x4F25D8F6_4F26C2D7_4F27D8F7_4F2ACEB1_4F2BD8F9_4F2FB2AE_4F30B9C0_4F32D9A3,
  0x4F34B0E9_4F36C1E6_4F38C9EC_4F3ACBC5_4F3CCBC6_4F3DD9A4_4F43B5E8_4F46B5AB,
  0x4F4DCEBB_4F4EB5CD_4F4FD7A1_4F50D7F4_4F51D3D3_4F53CCE5_4F55BACE_4F57D9A2,
  0x4F58D9DC_4F59D3E0_4F5AD8FD_4F5BB7F0_4F5CD7F7_4F5DD8FE_4F5ED8FA_4F5FD9A1,
  0x4F60C4E3_4F63D3B6_4F64D8F4_4F65D9DD_4F67D8FB_4F69C5E5_4F6CC0D0_4F6FD1F0,
  0x4F70B0DB_4F73BCD1_4F74D9A6_4F76D9A5_4F7BD9AC_4F7CD9AE_4F7ED9AB_4F7FCAB9,
  0x4F83D9A9_4F84D6B6_4F88B3DE_4F89D9A8_4F8BC0FD_4F8DCACC_4F8FD9AA_4F91D9A7,
  0x4F94D9B0_4F97B6B1_4F9BB9A9_4F9DD2C0_4FA0CFC0_4FA3C2C2_4FA5BDC4_4FA6D5EC,
  0x4FA7B2E0_4FA8C7C8_4FA9BFEB_4FAAD9AD_4FACD9AF_4FAECEEA_4FAFBAEE_4FB5C7D6,
  0x4FBFB1E3_4FC3B4D9_4FC4B6ED_4FC5D9B4_4FCABFA1_4FCED9DE_4FCFC7CE_4FD0C0FE,
  0x4FD1D9B8_4FD7CBD7_4FD8B7FD_4FDAD9B5_4FDCD9B7_4FDDB1A3_4FDED3E1_4FDFD9B9,
  0x4FE1D0C5_4FE3D9B6_4FE6D9B1_4FE8D9B2_4FE9C1A9_4FEAD9B3_4FEDBCF3_4FEED0DE,
  0x4FEFB8A9_4FF1BEE3_4FF3D9BD_4FF8D9BA_4FFAB0B3_4FFED9C2_500CD9C4_500DB1B6,
  0x500FD9BF_5012B5B9_5014BEF3_5018CCC8_5019BAF2_501AD2D0_501CD9C3_501FBDE8,
  0x5021B3AB_5025D9C5_5026BEEB_5028D9C6_5029D9BB_502AC4DF_502CD9BE_502DD9C1,
  0x502ED9C0_503AD5AE_503CD6B5_503EC7E3_5043D9C8_5047BCD9_5048D9CA_504CD9BC,
  0x504ED9CB_504FC6AB_5055D9C9_505AD7F6_505CCDA3_5065BDA1_506CD9CC_5076C5BC,
  0x5077CDB5_507BD9CD_507ED9C7_507FB3A5_5080BFFE_5085B8B5_5088C0FC_508DB0F8,
  0x50A3B4F6_50A5D9CE_50A7D9CF_50A8B4A2_50A9D9D0_50ACB4DF_50B2B0C1_50BAD9D1,
  0x50BBC9B5_50CFCFF1_50D6D9D2_50DAC1C5_50E6D9D6_50E7C9AE_50ECD9D5_50EDD9D4,
  0x50EED9D7_50F3CBDB_50F5BDA9_50FBC6A7_5106D9D3_5107D9D8_510BD9D9_5112C8E5,
  0x5121C0DC_513FB6F9_5140D8A3_5141D4CA_5143D4AA_5144D0D6_5145B3E4_5146D5D7,
  0x5148CFC8_5149B9E2_514BBFCB_514DC3E2_5151B6D2_5154CDC3_5155D9EE_5156D9F0,
  0x515AB5B3_515CB6B5_5162BEA4_5165C8EB_5168C8AB_516BB0CB_516CB9AB_516DC1F9,
  0x516ED9E2_5170C0BC_5171B9B2_5173B9D8_5174D0CB_5175B1F8_5176C6E4_5177BEDF,
  0x5178B5E4_5179D7C8_517BD1F8_517CBCE6_517DCADE_5180BCBD_5181D9E6_5182D8E7,
  0x5185C4DA_5188B8D4_5189C8BD_518CB2E1_518DD4D9_5192C3B0_5195C3E1_5196DAA2,
  0x5197C8DF_5199D0B4_519BBEFC_519CC5A9_51A0B9DA_51A2DAA3_51A4D4A9_51A5DAA4,
  0x51ABD9FB_51ACB6AC_51AFB7EB_51B0B1F9_51B1D9FC_51B2B3E5_51B3BEF6_51B5BFF6,
  0x51B6D2B1_51B7C0E4_51BBB6B3_51BCD9FE_51BDD9FD_51C0BEBB_51C4C6E0_51C6D7BC,
  0x51C7DAA1_51C9C1B9_51CBB5F2_51CCC1E8_51CFBCF5_51D1B4D5_51DBC1DD_51DDC4FD,
  0x51E0BCB8_51E1B7B2_51E4B7EF_51EBD9EC_51EDC6BE_51EFBFAD_51F0BBCB_51F3B5CA,
  0x51F5DBC9_51F6D0D7_51F8CDB9_51F9B0BC_51FAB3F6_51FBBBF7_51FCDBCA_51FDBAAF,
  0x51FFD4E4_5200B5B6_5201B5F3_5202D8D6_5203C8D0_5206B7D6_5207C7D0_5208D8D7,
  0x520ABFAF_520DDBBB_520ED8D8_5211D0CC_5212BBAE_5216EBBE_5217C1D0_5218C1F5,
  0x5219D4F2_521AB8D5_521BB4B4_521DB3F5_5220C9BE_5224C5D0_5228C5D9_5229C0FB,
  0x522BB1F0_522DD8D9_522EB9CE_5230B5BD_5233D8DA_5236D6C6_5237CBA2_5238C8AF,
  0x5239C9B2_523AB4CC_523BBFCC_523DB9F4_523FD8DB_5240D8DC_5241B6E7_5242BCC1,
  0x5243CCEA_524ACFF7_524CD8DD_524DC7B0_5250B9D0_5251BDA3_5254CCDE_5256C6CA,
  0x525CD8E0_525ED8DE_5261D8DF_5265B0FE_5267BEE7_5269CAA3_526ABCF4_526FB8B1,
  0x5272B8EE_527DD8E2_527FBDCB_5281D8E4_5282D8E3_5288C5FC_5290D8E5_5293D8E6,
  0x529BC1A6_529DC8B0_529EB0EC_529FB9A6_52A0BCD3_52A1CEF1_52A2DBBD_52A3C1D3,
  0x52A8B6AF_52A9D6FA_52AAC5AC_52ABBDD9_52ACDBBE_52ADDBBF_52B1C0F8_52B2BEA2,
  0x52B3C0CD_52BEDBC0_52BFCAC6_52C3B2AA_52C7D3C2_52C9C3E3_52CBD1AB_52D0DBC2,
  0x52D2C0D5_52D6DBC3_52D8BFB1_52DFC4BC_52E4C7DA_52F0DBC4_52F9D9E8_52FAC9D7,
  0x52FEB9B4_52FFCEF0_5300D4C8_5305B0FC_5306B4D2_5308D0D9_530DD9E9_530FDECB,
  0x5310D9EB_5315D8B0_5316BBAF_5317B1B1_5319B3D7_531AD8CE_531DD4D1_5320BDB3,
  0x5321BFEF_5323CFBB_5326D8D0_532AB7CB_532ED8D1_5339C6A5_533AC7F8_533BD2BD,
  0x533ED8D2_533FC4E4_5341CAAE_5343C7A7_5345D8A6_5347C9FD_5348CEE7_5349BBDC,
  0x534AB0EB_534EBBAA_534FD0AD_5351B1B0_5352D7E4_5353D7BF_5355B5A5_5356C2F4,
  0x5357C4CF_535AB2A9_535CB2B7_535EB1E5_535FDFB2_5360D5BC_5361BFA8_5362C2AC,
  0x5363D8D5_5364C2B1_5366D8D4_5367CED4_5369DAE0_536BCEC0_536ED8B4_536FC3AE,
  0x5370D3A1_5371CEA3_5373BCB4_5374C8B4_5375C2D1_5377BEED_5378D0B6_537ADAE1,
  0x537FC7E4_5382B3A7_5384B6F2_5385CCFC_5386C0FA_5389C0F7_538BD1B9_538CD1E1,
  0x538DD8C7_5395B2DE_5398C0E5_539ABAF1_539DD8C8_539FD4AD_53A2CFE1_53A3D8C9,
  0x53A5D8CA_53A6CFC3_53A8B3F8_53A9BEC7_53AED8CB_53B6DBCC_53BBC8A5_53BFCFD8,
  0x53C1C8FE_53C2B2CE_53C8D3D6_53C9B2E6_53CABCB0_53CBD3D1_53CCCBAB_53CDB7B4,
  0x53D1B7A2_53D4CAE5_53D6C8A1_53D7CADC_53D8B1E4_53D9D0F0_53DBC5D1_53DFDBC5,
  0x53E0B5FE_53E3BFDA_53E4B9C5_53E5BEE4_53E6C1ED_53E8DFB6_53E9DFB5_53EAD6BB,
  0x53EBBDD0_53ECD5D9_53EDB0C8_53EEB6A3_53EFBFC9_53F0CCA8_53F1DFB3_53F2CAB7,
  0x53F3D3D2_53F5D8CF_53F6D2B6_53F7BAC5_53F8CBBE_53F9CCBE_53FBDFB7_53FCB5F0,
  0x53FDDFB4_5401D3F5_5403B3D4_5404B8F7_5406DFBA_5408BACF_5409BCAA_540AB5F5,
  0x540CCDAC_540DC3FB_540EBAF3_540FC0F4_5410CDC2_5411CFF2_5412DFB8_5413CFC5,
  0x5415C2C0_5416DFB9_5417C2F0_541BBEFD_541DC1DF_541ECDCC_541FD2F7_5420B7CD,
  0x5421DFC1_5423DFC4_5426B7F1_5427B0C9_5428B6D6_5429B7D4_542BBAAC_542CCCFD,
  0x542DBFD4_542ECBB1_542FC6F4_5431D6A8_5432DFC5_5434CEE2_5435B3B3_5438CEFC,
  0x5439B4B5_543BCEC7_543CBAF0_543ECEE1_5440D1BD_5443DFC0_5446B4F4_5448B3CA,
  0x544AB8E6_544BDFBB_5450C4C5_5452DFBC_5453DFBD_5454DFBE_5455C5BB_5456DFBF,
  0x5457DFC2_5458D4B1_5459DFC3_545BC7BA_545CCED8_5462C4D8_5464DFCA_5466DFCF,
  0x5468D6DC_5471DFC9_5472DFDA_5473CEB6_5475BAC7_5476DFCE_5477DFC8_5478C5DE,
  0x547BC9EB_547CBAF4_547DC3FC_5480BED7_5482DFC6_5484DFCD_5486C5D8_548BD5A6,
  0x548CBACD_548EBECC_548FD3BD_5490B8C0_5492D6E4_5494DFC7_5495B9BE_5496BFA7,
  0x5499C1FC_549ADFCB_549BDFCC_549DDFD0_54A3DFDB_54A4DFE5_54A6DFD7_54A7DFD6,
  0x54A8D7C9_54A9DFE3_54AADFE4_54ABE5EB_54ACD2A7_54ADDFD2_54AFBFA9_54B1D4DB,
  0x54B3BFC8_54B4DFD4_54B8CFCC_54BBDFDD_54BDD1CA_54BFDFDE_54C0B0A7_54C1C6B7,
  0x54C2DFD3_54C4BAE5_54C6B6DF_54C7CDDB_54C8B9FE_54C9D4D5_54CCDFDF_54CDCFEC,
  0x54CEB0A5_54CFDFE7_54D0DFD1_54D1D1C6_54D2DFD5_54D3DFD8_54D4DFD9_54D5DFDC,
  0x54D7BBA9_54D9DFE0_54DADFE1_54DCDFE2_54DDDFE6_54DEDFE8_54DFD3B4_54E5B8E7,
  0x54E6C5B6_54E7DFEA_54E8C9DA_54E9C1A8_54EAC4C4_54EDBFDE_54EECFF8_54F2D5DC,
  0x54F3DFEE_54FAB2B8_54FCBADF_54FDDFEC_54FFDBC1_5501D1E4_5506CBF4_5507B4BD,
  0x5509B0A6_550FDFF1_5510CCC6_5511DFF2_5514DFED_551BDFE9_5520DFEB_5522DFEF,
  0x5523DFF0_5524BBBD_5527DFF3_552ADFF4_552CBBA3_552ECADB_552FCEA8_5530E0A7,
  0x5531B3AA_5533E0A6_5537E0A1_553CDFFE_553ECDD9_553FDFFC_5541DFFA_5543BFD0,
  0x5544D7C4_5546C9CC_5549DFF8_554AB0A1_5550DFFD_5555DFFB_5556E0A2_555CE0A8,
  0x5561B7C8_5564C6A1_5565C9B6_5566C0B2_5567DFF5_556AC5BE_556CD8C4_556DDFF9,
  0x556EC4F6_5575E0A3_5576E0A4_5577E0A5_5578D0A5_557BE0B4_557CCCE4_557EE0B1,
  0x5580BFA6_5581E0AF_5582CEB9_5583E0AB_5584C9C6_5587C0AE_5588E0AE_5589BAED,
  0x558ABAB0_558BE0A9_558FDFF6_5591E0B3_5594E0B8_5598B4AD_5599E0B9_559CCFB2,
  0x559DBAC8_559FE0B0_55A7D0FA_55B1E0AC_55B3D4FB_55B5DFF7_55B7C5E7_55B9E0AD,
  0x55BBD3F7_55BDE0B6_55BEE0B7_55C4E0C4_55C5D0E1_55C9E0BC_55CCE0C9_55CDE0CA,
  0x55D1E0BE_55D2E0AA_55D3C9A4_55D4E0C1_55D6E0B2_55DCCAC8_55DDE0C3_55DFE0B5,
  0x55E1CECB_55E3CBC3_55E4E0CD_55E5E0C6_55E6E0C2_55E8E0CB_55EAE0BA_55EBE0BF,
  0x55ECE0C0_55EFE0C5_55F2E0C7_55F3E0C8_55F5E0CC_55F7E0BB_55FDCBD4_55FEE0D5,
  0x5600E0D6_5601E0D2_5608E0D0_5609BCCE_560CE0D1_560EB8C2_560FD8C5_5618D0EA,
  0x561BC2EF_561EE0CF_561FE0BD_5623E0D4_5624E0D3_5627E0D7_562CE0DC_562DE0D8,
  0x5631D6F6_5632B3B0_5634D7EC_5636CBBB_5639E0DA_563BCEFB_563FBAD9_564CE0E1,
  0x564DE0DD_564ED2AD_5654E0E2_5657E0DB_5658E0D9_5659E0DF_565CE0E0_5662E0DE,
  0x5664E0E4_5668C6F7_5669D8AC_566AD4EB_566BE0E6_566CCAC9_5671E0E5_5676B8C1,
  0x567BE0E7_567CE0E8_5685E0E9_5686E0E3_568EBABF_568FCCE7_5693E0EA_56A3CFF9,
  0x56AFE0EB_56B7C8C2_56BCBDC0_56CAC4D2_56D4E0EC_56D7E0ED_56DAC7F4_56DBCBC4,
  0x56DDE0EE_56DEBBD8_56DFD8B6_56E0D2F2_56E1E0EF_56E2CDC5_56E4B6DA_56EBE0F1,
  0x56EDD4B0_56F0C0A7_56F1B4D1_56F4CEA7_56F5E0F0_56F9E0F2_56FAB9CC_56FDB9FA,
  0x56FECDBC_56FFE0F3_5703C6D4_5704E0F4_5706D4B2_5708C8A6_5709E0F6_570AE0F5,
  0x571CE0F7_571FCDC1_5723CAA5_5728D4DA_5729DBD7_572ADBD9_572CDBD8_572DB9E7,
  0x572EDBDC_572FDBDD_5730B5D8_5733DBDA_5739DBDB_573AB3A1_573BDBDF_573EBBF8,
  0x5740D6B7_5742DBE0_5747BEF9_574AB7BB_574CDBD0_574DCCAE_574EBFB2_574FBBB5,
  0x5750D7F8_5751BFD3_5757BFE9_575ABCE1_575BCCB3_575CDBDE_575DB0D3_575ECEEB,
  0x575FB7D8_5760D7B9_5761C6C2_5764C0A4_5766CCB9_5768DBE7_5769DBE1_576AC6BA,
  0x576BDBE3_576DDBE8_576FC5F7_5773DBEA_5776DBE9_5777BFC0_577BDBE6_577CDBE5,
  0x5782B4B9_5783C0AC_5784C2A2_5785DBE2_5786DBE4_578BD0CD_578CDBED_5792C0DD,
  0x5793DBF2_579BB6E2_57A0DBF3_57A1DBD2_57A2B9B8_57A3D4AB_57A4DBEC_57A6BFD1,
  0x57A7DBF0_57A9DBD1_57ABB5E6_57ADDBEB_57AEBFE5_57B2DBEE_57B4DBF1_57B8DBF9,
  0x57C2B9A1_57C3B0A3_57CBC2F1_57CEB3C7_57CFDBEF_57D2DBF8_57D4C6D2_57D5DBF4,
  0x57D8DBF5_57D9DBF7_57DADBF6_57DDDBFE_57DFD3F2_57E0B2BA_57E4DBFD_57EDDCA4,
  0x57EFDBFB_57F4DBFA_57F8DBFC_57F9C5E0_57FABBF9_57FDDCA3_5800DCA5_5802CCC3,
  0x5806B6D1_5807DDC0_580BDCA1_580DDCA2_5811C7B5_5815B6E9_5819DCA7_581EDCA6,
  0x5820DCA9_5821B1A4_5824B5CC_582ABFB0_5830D1DF_5835B6C2_5844DCA8_584CCBFA,
  0x584DEBF3_5851CBDC_5854CBFE_5858CCC1_585EC8FB_5865DCAA_586BCCEE_586CDCAB,
  0x587EDBD3_5880DCAF_5881DCAC_5883BEB3_5885CAFB_5889DCAD_5892C9CA_5893C4B9,
  0x5899C7BD_589ADCAE_589ED4F6_589FD0E6_58A8C4AB_58A9B6D5_58BCDBD4_58C1B1DA,
  0x58C5DBD5_58D1DBD6_58D5BABE_58E4C8C0_58EBCABF_58ECC8C9_58EED7B3_58F0C9F9,
  0x58F3BFC7_58F6BAF8_58F9D2BC_5902E2BA_5904B4A6_5907B1B8_590DB8B4_590FCFC4,
  0x5914D9E7_5915CFA6_5916CDE2_5919D9ED_591AB6E0_591CD2B9_591FB9BB_5924E2B9,
  0x5925E2B7_5927B4F3_5929CCEC_592ACCAB_592BB7F2_592DD8B2_592ED1EB_592FBABB,
  0x5931CAA7_5934CDB7_5937D2C4_5938BFE4_5939BCD0_593AB6E1_593CDEC5_5941DEC6,
  0x5942DBBC_5944D1D9_5947C6E6_5948C4CE_5949B7EE_594BB7DC_594EBFFC_594FD7E0,
  0x5951C6F5_5954B1BC_5955DEC8_5956BDB1_5957CCD7_5958DECA_595ADEC9_5960B5EC,
  0x5962C9DD_5965B0C2_5973C5AE_5974C5AB_5976C4CC_5978BCE9_5979CBFD_597DBAC3,
  0x5981E5F9_5982C8E7_5983E5FA_5984CDFD_5986D7B1_5987B8BE_5988C2E8_598AC8D1,
  0x598DE5FB_5992B6CA_5993BCCB_5996D1FD_5997E6A1_5999C3EE_599EE6A4_59A3E5FE,
  0x59A4E6A5_59A5CDD7_59A8B7C1_59A9E5FC_59AAE5FD_59ABE6A3_59AEC4DD_59AFE6A8,
  0x59B2E6A7_59B9C3C3_59BBC6DE_59BEE6AA_59C6C4B7_59CAE6A2_59CBCABC_59D0BDE3,
  0x59D1B9C3_59D2E6A6_59D3D0D5_59D4CEAF_59D7E6A9_59D8E6B0_59DAD2A6_59DCBDAA,
  0x59DDE6AD_59E3E6AF_59E5C0D1_59E8D2CC_59ECBCA7_59F9E6B1_59FBD2F6_59FFD7CB,
  0x5A01CDFE_5A03CDDE_5A04C2A6_5A05E6AB_5A06E6AC_5A07BDBF_5A08E6AE_5A09E6B3,
  0x5A0CE6B2_5A11E6B6_5A13E6B8_5A18C4EF_5A1CC4C8_5A1FBEEA_5A20C9EF_5A23E6B7,
  0x5A25B6F0_5A29C3E4_5A31D3E9_5A32E6B4_5A34E6B5_5A36C8A2_5A3CE6BD_5A40E6B9,
  0x5A46C6C5_5A49CDF1_5A4AE6BB_5A55E6BC_5A5ABBE9_5A62E6BE_5A67E6BA_5A6AC0B7,
  0x5A74D3A4_5A75E6BF_5A76C9F4_5A77E6C3_5A7AE6C4_5A7FD0F6_5A92C3BD_5A9AC3C4,
  0x5A9BE6C2_5AAAE6C1_5AB2E6C7_5AB3CFB1_5AB5EBF4_5AB8E6CA_5ABEE6C5_5AC1BCDE,
  0x5AC2C9A9_5AC9BCB5_5ACCCFD3_5AD2E6C8_5AD4E6C9_5AD6E6CE_5AD8E6D0_5ADCE6D1,
  0x5AE0E6CB_5AE1B5D5_5AE3E6CC_5AE6E6CF_5AE9C4DB_5AEBE6C6_5AF1E6CD_5B09E6D2,
  0x5B16E6D4_5B17E6D3_5B32E6D5_5B34D9F8_5B37E6D6_5B40E6D7_5B50D7D3_5B51E6DD,
  0x5B53E6DE_5B54BFD7_5B55D4D0_5B57D7D6_5B58B4E6_5B59CBEF_5B5AE6DA_5B5BD8C3,
  0x5B5CD7CE_5B5DD0A2_5B5FC3CF_5B62E6DF_5B63BCBE_5B64B9C2_5B65E6DB_5B66D1A7,
  0x5B69BAA2_5B6AC2CF_5B6CD8AB_5B70CAEB_5B71E5EE_5B73E6DC_5B75B7F5_5B7AC8E6,
  0x5B7DC4F5_5B80E5B2_5B81C4FE_5B83CBFC_5B84E5B3_5B85D5AC_5B87D3EE_5B88CAD8,
  0x5B89B0B2_5B8BCBCE_5B8CCDEA_5B8FBAEA_5B93E5B5_5B95E5B4_5B97D7DA_5B98B9D9,
  0x5B99D6E6_5B9AB6A8_5B9BCDF0_5B9CD2CB_5B9DB1A6_5B9ECAB5_5BA0B3E8_5BA1C9F3,
  0x5BA2BFCD_5BA3D0FB_5BA4CAD2_5BA5E5B6_5BA6BBC2_5BAACFDC_5BABB9AC_5BB0D4D7,
  0x5BB3BAA6_5BB4D1E7_5BB5CFFC_5BB6BCD2_5BB8E5B7_5BB9C8DD_5BBDBFED_5BBEB1F6,
  0x5BBFCBDE_5BC2BCC5_5BC4BCC4_5BC5D2FA_5BC6C3DC_5BC7BFDC_5BCCB8BB_5BD0C3C2,
  0x5BD2BAAE_5BD3D4A2_5BDDC7DE_5BDEC4AF_5BDFB2EC_5BE1B9D1_5BE4E5BB_5BE5C1C8,
  0x5BE8D5AF_5BEEE5BC_5BF0E5BE_5BF8B4E7_5BF9B6D4_5BFACBC2_5BFBD1B0_5BFCB5BC,
  0x5BFFCAD9_5C01B7E2_5C04C9E4_5C06BDAB_5C09CEBE_5C0AD7F0_5C0FD0A1_5C11C9D9,
  0x5C14B6FB_5C15E6D8_5C16BCE2_5C18B3BE_5C1AC9D0_5C1CE6D9_5C1DB3A2_5C22DECC,
  0x5C24D3C8_5C25DECD_5C27D2A2_5C2CDECE_5C31BECD_5C34DECF_5C38CAAC_5C39D2FC,
  0x5C3AB3DF_5C3BE5EA_5C3CC4E1_5C3DBEA1_5C3ECEB2_5C3FC4F2_5C40BED6_5C41C6A8,
  0x5C42B2E3_5C45BED3_5C48C7FC_5C49CCEB_5C4ABDEC_5C4BCEDD_5C4ECABA_5C4FC6C1,
  0x5C50E5EC_5C51D0BC_5C55D5B9_5C59E5ED_5C5ECAF4_5C60CDC0_5C61C2C5_5C63E5EF,
  0x5C65C2C4_5C66E5F0_5C6EE5F8_5C6FCDCD_5C71C9BD_5C79D2D9_5C7AE1A8_5C7FD3EC,
  0x5C81CBEA_5C82C6F1_5C88E1AC_5C8CE1A7_5C8DE1A9_5C90E1AA_5C91E1AF_5C94B2ED,
  0x5C96E1AB_5C97B8DA_5C98E1AD_5C99E1AE_5C9AE1B0_5C9BB5BA_5C9CE1B1_5CA2E1B3,
  0x5CA3E1B8_5CA9D1D2_5CABE1B6_5CACE1B5_5CADC1EB_5CB1E1B7_5CB3D4C0_5CB5E1B2,
  0x5CB7E1BA_5CB8B0B6_5CBDE1B4_5CBFBFF9_5CC1E1B9_5CC4E1BB_5CCBE1BE_5CD2E1BC,
  0x5CD9D6C5_5CE1CFBF_5CE4E1BD_5CE5E1BF_5CE6C2CD_5CE8B6EB_5CEAD3F8_5CEDC7CD,
  0x5CF0B7E5_5CFBBEFE_5D02E1C0_5D03E1C1_5D06E1C7_5D07B3E7_5D0EC6E9_5D14B4DE,
  0x5D16D1C2_5D1BE1C8_5D1EE1C6_5D24E1C5_5D26E1C3_5D27E1C2_5D29B1C0_5D2DD5B8,
  0x5D2EE1C4_5D34E1CB_5D3DE1CC_5D3EE1CA_5D47EFFA_5D4AE1D3_5D4BE1D2_5D4CC7B6,
  0x5D58E1C9_5D5BE1CE_5D5DE1D0_5D69E1D4_5D6BE1D1_5D6CE1CD_5D6FE1CF_5D74E1D5,
  0x5D82E1D6_5D99E1D7_5D9DE1D8_5DB7E1DA_5DC5E1DB_5DCDCEA1_5DDBE7DD_5DDDB4A8,
  0x5DDED6DD_5DE1D1B2_5DE2B3B2_5DE5B9A4_5DE6D7F3_5DE7C7C9_5DE8BEDE_5DE9B9AE,
  0x5DEBCED7_5DEEB2EE_5DEFDBCF_5DF1BCBA_5DF2D2D1_5DF3CBC8_5DF4B0CD_5DF7CFEF,
  0x5DFDD9E3_5DFEBDED_5E01B1D2_5E02CAD0_5E03B2BC_5E05CBA7_5E06B7AB_5E08CAA6,
  0x5E0CCFA3_5E0FE0F8_5E10D5CA_5E11E0FB_5E14E0FA_5E15C5C1_5E16CCFB_5E18C1B1,
  0x5E19E0F9_5E1AD6E3_5E1BB2AF_5E1CD6C4_5E1DB5DB_5E26B4F8_5E27D6A1_5E2DCFAF,
  0x5E2EB0EF_5E31E0FC_5E37E1A1_5E38B3A3_5E3BE0FD_5E3CE0FE_5E3DC3B1_5E42C3DD,
  0x5E44E1A2_5E45B7F9_5E4CBBCF_5E54E1A3_5E55C4BB_5E5BE1A4_5E5EE1A5_5E61E1A6,
  0x5E62B4B1_5E72B8C9_5E73C6BD_5E74C4EA_5E76B2A2_5E78D0D2_5E7AE7DB_5E7BBBC3,
  0x5E7CD3D7_5E7DD3C4_5E7FB9E3_5E80E2CF_5E84D7AF_5E86C7EC_5E87B1D3_5E8AB4B2,
  0x5E8BE2D1_5E8FD0F2_5E90C2AE_5E91E2D0_5E93BFE2_5E94D3A6_5E95B5D7_5E96E2D2,
  0x5E97B5EA_5E99C3ED_5E9AB8FD_5E9CB8AE_5E9EC5D3_5E9FB7CF_5EA0E2D4_5EA5E2D3,
  0x5EA6B6C8_5EA7D7F9_5EADCDA5_5EB3E2D8_5EB5E2D6_5EB6CAFC_5EB7BFB5_5EB8D3B9,
  0x5EB9E2D5_5EBEE2D7_5EC9C1AE_5ECAC0C8_5ED1E2DB_5ED2E2DA_5ED3C0AA_5ED6C1CE,
  0x5EDBE2DC_5EE8E2DD_5EEAE2DE_5EF4DBC8_5EF6D1D3_5EF7CDA2_5EFABDA8_5EFEDEC3,
  0x5EFFD8A5_5F00BFAA_5F01DBCD_5F02D2EC_5F03C6FA_5F04C5AA_5F08DEC4_5F0AB1D7,
  0x5F0BDFAE_5F0FCABD_5F11DFB1_5F13B9AD_5F15D2FD_5F17B8A5_5F18BAEB_5F1BB3DA,
  0x5F1FB5DC_5F20D5C5_5F25C3D6_5F26CFD2_5F27BBA1_5F29E5F3_5F2AE5F2_5F2DE5F4,
  0x5F2FCDE4_5F31C8F5_5F39B5AF_5F3AC7BF_5F3CE5F6_5F40ECB0_5F50E5E6_5F52B9E9,
  0x5F53B5B1_5F55C2BC_5F56E5E8_5F57E5E7_5F58E5E9_5F5DD2CD_5F61E1EA_5F62D0CE,
  0x5F64CDAE_5F66D1E5_5F69B2CA_5F6AB1EB_5F6CB1F2_5F6DC5ED_5F70D5C3_5F71D3B0,
  0x5F73E1DC_5F77E1DD_5F79D2DB_5F7BB3B9_5F7CB1CB_5F80CDF9_5F81D5F7_5F82E1DE,
  0x5F84BEB6_5F85B4FD_5F87E1DF_5F88BADC_5F89E1E0_5F8ABBB2_5F8BC2C9_5F8CE1E1,
  0x5F90D0EC_5F92CDBD_5F95E1E2_5F97B5C3_5F98C5C7_5F99E1E3_5F9CE1E4_5FA1D3F9,
  0x5FA8E1E5_5FAAD1AD_5FADE1E6_5FAECEA2_5FB5E1E7_5FB7B5C2_5FBCE1E8_5FBDBBD5,
  0x5FC3D0C4_5FC4E2E0_5FC5B1D8_5FC6D2E4_5FC9E2E1_5FCCBCC9_5FCDC8CC_5FCFE2E3,
  0x5FD0ECFE_5FD1ECFD_5FD2DFAF_5FD6E2E2_5FD7D6BE_5FD8CDFC_5FD9C3A6_5FDDE3C3,
  0x5FE0D6D2_5FE1E2E7_5FE4E2E8_5FE7D3C7_5FEAE2EC_5FEBBFEC_5FEDE2ED_5FEEE2E5,
  0x5FF1B3C0_5FF5C4EE_5FF8E2EE_5FFBD0C3_5FFDBAF6_5FFEE2E9_5FFFB7DE_6000BBB3,
  0x6001CCAC_6002CBCB_6003E2E4_6004E2E6_6005E2EA_6006E2EB_600AE2F7_600DE2F4,
  0x600ED4F5_600FE2F3_6012C5AD_6014D5FA_6015C5C2_6016B2C0_6019E2EF_601BE2F2,
  0x601CC1AF_601DCBBC_6020B5A1_6021E2F9_6025BCB1_6026E2F1_6027D0D4_6028D4B9,
  0x6029E2F5_602AB9D6_602BE2F6_602FC7D3_6035E2F0_603BD7DC_603CEDA1_603FE2F8,
  0x6041EDA5_6042E2FE_6043CAD1_604BC1B5_604DBBD0_6050BFD6_6052BAE3_6055CBA1,
  0x6059EDA6_605AEDA3_605DEDA2_6062BBD6_6063EDA7_6064D0F4_6067EDA4_6068BADE,
  0x6069B6F7_606AE3A1_606BB6B2_606CCCF1_606DB9A7_606FCFA2_6070C7A1_6073BFD2,
  0x6076B6F1_6078E2FA_6079E2FB_607AE2FD_607BE2FC_607CC4D5_607DE3A2_607FD3C1,
  0x6083E3A7_6084C7C4_6089CFA4_608CE3A9_608DBAB7_6092E3A8_6094BBDA_6096E3A3,
  0x609AE3A4_609BE3AA_609DE3A6_609FCEF2_60A0D3C6_60A3BBBC_60A6D4C3_60A8C4FA,
  0x60ABEDA8_60ACD0FC_60ADE3A5_60AFC3F5_60B1E3AD_60B2B1AF_60B4E3B2_60B8BCC2,
  0x60BBE3AC_60BCB5BF_60C5C7E9_60C6E3B0_60CABEAA_60CBCDEF_60D1BBF3_60D5CCE8,
  0x60D8E3AF_60DAE3B1_60DCCFA7_60DDE3AE_60DFCEA9_60E0BBDD_60E6B5EB_60E7BEE5,
  0x60E8B2D2_60E9B3CD_60EBB1B9_60ECE3AB_60EDB2D1_60EEB5AC_60EFB9DF_60F0B6E8,
  0x60F3CFEB_60F4E3B7_60F6BBCC_60F9C8C7_60FAD0CA_6100E3B8_6101B3EE_6106EDA9,
  0x6108D3FA_6109D3E4_610DEDAA_610EE3B9_610FD2E2_6115E3B5_611AD3DE_611FB8D0,
  0x6120E3B3_6123E3B6_6124B7DF_6126E3B4_6127C0A2_612BE3BA_613FD4B8_6148B4C8,
  0x614AE3BB_614CBBC5_614EC9F7_6151C9E5_6155C4BD_615DEDAB_6162C2FD_6167BBDB,
  0x6168BFAE_6170CEBF_6175E3BC_6177BFB6_618BB1EF_618ED4F7_6194E3BE_619DEDAD,
  0x61A7E3BF_61A8BAA9_61A9EDAC_61ACE3BD_61B7E3C0_61BEBAB6_61C2B6AE_61C8D0B8,
  0x61CAB0C3_61CBEDAE_61D1EDAF_61D2C0C1_61D4E3C1_61E6C5B3_61F5E3C2_61FFDCB2,
  0x6206EDB0_6208B8EA_620ACEEC_620BEAA7_620CD0E7_620DCAF9_620EC8D6_620FCFB7,
  0x6210B3C9_6211CED2_6212BDE4_6215E3DE_6216BBF2_6217EAA8_6218D5BD_621AC6DD,
  0x621BEAA9_621FEAAA_6221EAAC_6222EAAB_6224EAAE_6225EAAD_622ABDD8_622CEAAF,
  0x622EC2BE_6233B4C1_6234B4F7_6237BBA7_623DECE6_623EECE5_623FB7BF_6240CBF9,
  0x6241B1E2_6243ECE7_6247C9C8_6248ECE8_6249ECE9_624BCAD6_624CDED0_624DB2C5,
  0x624ED4FA_6251C6CB_6252B0C7_6253B4F2_6254C8D3_6258CDD0_625BBFB8_6263BFDB,
  0x6266C7A4_6267D6B4_6269C0A9_626ADED1_626BC9A8_626CD1EF_626DC5A4_626EB0E7,
  0x626FB3B6_6270C8C5_6273B0E2_6276B7F6_6279C5FA_627CB6F3_627ED5D2_627FB3D0,
  0x6280BCBC_6284B3AD_6289BEF1_628AB0D1_6291D2D6_6292CAE3_6293D7A5_6295CDB6,
  0x6296B6B6_6297BFB9_6298D5DB_629AB8A7_629BC5D7_629FDED2_62A0BFD9_62A1C2D5,
  0x62A2C7C0_62A4BBA4_62A5B1A8_62A8C5EA_62ABC5FB_62ACCCA7_62B1B1A7_62B5B5D6,
  0x62B9C4A8_62BBDED3_62BCD1BA_62BDB3E9_62BFC3F2_62C2B7F7_62C4D6F4_62C5B5A3,
  0x62C6B2F0_62C7C4B4_62C8C4E9_62C9C0AD_62CADED4_62CCB0E8_62CDC5C4_62CEC1E0,
  0x62D0B9D5_62D2BEDC_62D3CDD8_62D4B0CE_62D6CDCF_62D7DED6_62D8BED0_62D9D7BE,
  0x62DADED5_62DBD5D0_62DCB0DD_62DFC4E2_62E2C2A3_62E3BCF0_62E5D3B5_62E6C0B9,
  0x62E7C5A1_62E8B2A6_62E9D4F1_62ECC0A8_62EDCAC3_62EEDED7_62EFD5FC_62F1B9B0,
  0x62F3C8AD_62F4CBA9_62F6DED9_62F7BFBD_62FCC6B4_62FDD7A7_62FECAB0_62FFC4C3,
  0x6301B3D6_6302B9D2_6307D6B8_6308EAFC_6309B0B4_630EBFE6_6311CCF4_6316CDDA,
  0x631AD6BF_631BC2CE_631DCECE_631ECCA2_631FD0AE_6320C4D3_6321B5B2_6322DED8,
  0x6323D5F5_6324BCB7_6325BBD3_6328B0A4_632AC5B2_632BB4EC_632FD5F1_6332EAFD,
  0x6339DEDA_633ACDA6_633DCDEC_6342CEE6_6343DEDC_6345CDB1_6346C0A6_6349D7BD,
  0x634BDEDB_634CB0C6_634DBAB4_634EC9D3_634FC4F3_6350BEE8_6355B2B6_635EC0CC,
  0x635FCBF0_6361BCF1_6362BBBB_6363B5B7_6367C5F5_6369DEE6_636DDEE3_636EBEDD,
  0x6371DEDF_6376B4B7_6377BDDD_637ADEE0_637BC4ED_6380CFC6_6382B5E0_6387B6DE,
  0x6388CADA_6389B5F4_638ADEE5_638CD5C6_638EDEE1_638FCCCD_6390C6FE_6392C5C5,
  0x6396D2B4_6398BEF2_63A0C2D3_63A2CCBD_63A3B3B8_63A5BDD3_63A7BFD8_63A8CDC6,
  0x63A9D1DA_63AAB4EB_63ACDEE4_63ADDEDD_63AEDEE7_63B0EAFE_63B3C2B0_63B4DEE2,
  0x63B7D6C0_63B8B5A7_63BAB2F4_63BCDEE8_63BEDEF2_63C4DEED_63C6DEF1_63C9C8E0,
  0x63CDD7E1_63CEDEEF_63CFC3E8_63D0CCE1_63D2B2E5_63D6D2BE_63DEDEEE_63E0DEEB,
  0x63E1CED5_63E3B4A7_63E9BFAB_63EABEBE_63EDBDD2_63F2DEE9_63F4D4AE_63F6DEDE,
  0x63F8DEEA_63FDC0BF_63FFDEEC_6400B2F3_6401B8E9_6402C2A7_6405BDC1_640BDEF5,
  0x640CDEF8_640FB2AB_6410B4A4_6413B4EA_6414C9A6_641BDEF6_641CCBD1_641EB8E3,
  0x6420DEF7_6421DEFA_6426DEF9_642ACCC2_642CB0E1_642DB4EE_6434E5BA_643AD0AF,
  0x643DB2EB_643FEBA1_6441DEF4_6444C9E3_6445DEF3_6446B0DA_6447D2A1_6448B1F7,
  0x644ACCAF_6452DEF0_6454CBA4_6458D5AA_645EDEFB_6467B4DD_6469C4A6_646DDEFD,
  0x6478C3FE_6479C4A1_647ADFA1_6482C1CC_6484DEFC_6485BEEF_6487C6B2_6491B3C5,
  0x6492C8F6_6495CBBA_6496DEFE_6499DFA4_649ED7B2_64A4B3B7_64A9C1C3_64ACC7CB,
  0x64ADB2A5_64AEB4E9_64B0D7AB_64B5C4EC_64B7DFA2_64B8DFA3_64BADFA5_64BCBAB3,
  0x64C0DFA6_64C2C0DE_64C5C9C3_64CDB2D9_64CEC7E6_64D0DFA7_64D2C7DC_64D7DFA8,
  0x64D8EBA2_64DECBD3_64E2DFAA_64E4DFA9_64E6B2C1_6500C5CA_6509DFAB_6512D4DC,
  0x6518C8C1_6525DFAC_652BBEF0_652EDFAD_652FD6A7_6534EAB7_6535EBB6_6536CAD5,
  0x6538D8FC_6539B8C4_653BB9A5_653EB7C5_653FD5FE_6545B9CA_6548D0A7_6549F4CD,
  0x654CB5D0_654FC3F4_6551BEC8_6555EBB7_6556B0BD_6559BDCC_655BC1B2_655DB1D6,
  0x655EB3A8_6562B8D2_6563C9A2_6566B6D8_656BEBB8_656CBEB4_6570CAFD_6572C7C3,
  0x6574D5FB_6577B7F3_6587CEC4_658BD5AB_658CB1F3_6590ECB3_6591B0DF_6593ECB5,
  0x6597B6B7_6599C1CF_659BF5FA_659CD0B1_659FD5E5_65A1CED3_65A4BDEF_65A5B3E2,
  0x65A7B8AB_65A9D5B6_65ABEDBD_65ADB6CF_65AFCBB9_65B0D0C2_65B9B7BD_65BCECB6,
  0x65BDCAA9_65C1C5D4_65C3ECB9_65C4ECB8_65C5C2C3_65C6ECB7_65CBD0FD_65CCECBA,
  0x65CEECBB_65CFD7E5_65D2ECBC_65D6ECBD_65D7C6EC_65E0CEDE_65E2BCC8_65E5C8D5,
  0x65E6B5A9_65E7BEC9_65E8D6BC_65E9D4E7_65ECD1AE_65EDD0F1_65EEEAB8_65EFEAB9,
  0x65F0EABA_65F1BAB5_65F6CAB1_65F7BFF5_65FACDFA_6600EAC0_6602B0BA_6603EABE,
  0x6606C0A5_660AEABB_660CB2FD_660EC3F7_660FBBE8_6613D2D7_6614CEF4_6615EABF,
  0x6619EABC_661DEAC3_661FD0C7_6620D3B3_6625B4BA_6627C3C1_6628D7F2_662DD5D1,
  0x662FCAC7_6631EAC5_6634EAC4_6635EAC7_6636EAC6_663CD6E7_663ECFD4_6641EACB,
  0x6643BBCE_664BBDFA_664CC9CE_664FEACC_6652C9B9_6653CFFE_6654EACA_6655D4CE,
  0x6656EACD_6657EACF_665ACDED_665FEAC9_6661EACE_6664CEEE_6666BBDE_6668B3BF,
  0x666EC6D5_666FBEB0_6670CEFA_6674C7E7_6676BEA7_6677EAD0_667AD6C7_667EC1C0,
  0x6682D4DD_6684EAD1_6687CFBE_668CEAD2_6691CAEE_6696C5AF_6697B0B5_669DEAD4,
  0x66A7EAD3_66A8F4DF_66AEC4BA_66B4B1A9_66B9E5DF_66BEEAD5_66D9CAEF_66DBEAD6,
  0x66DCEAD7_66DDC6D8_66E6EAD8_66E9EAD9_66F0D4BB_66F2C7FA_66F3D2B7_66F4B8FC,
  0x66F7EAC2_66F9B2DC_66FCC2FC_66FED4F8_66FFCCE6_6700D7EE_6708D4C2_6709D3D0,
  0x670AEBC3_670BC5F3_670DB7FE_6710EBD4_6714CBB7_6715EBDE_6717C0CA_671BCDFB,
  0x671DB3AF_671FC6DA_6726EBFC_6728C4BE_672ACEB4_672BC4A9_672CB1BE_672DD4FD,
  0x672FCAF5_6731D6EC_6734C6D3_6735B6E4_673ABBFA_673DD0E0_6740C9B1_6742D4D3,
  0x6743C8A8_6746B8CB_6748E8BE_6749C9BC_674CE8BB_674EC0EE_674FD0D3_6750B2C4,
  0x6751B4E5_6753E8BC_6756D5C8_675CB6C5_675EE8BD_675FCAF8_6760B8DC_6761CCF5,
  0x6765C0B4_6768D1EE_6769E8BF_676AE8C2_676DBABC_676FB1AD_6770BDDC_6772EABD,
  0x6773E8C3_6775E8C6_6777E8CB_677CE8CC_677ECBC9_677FB0E5_6781BCAB_6784B9B9,
  0x6787E8C1_6789CDF7_678BE8CA_6790CEF6_6795D5ED_6797C1D6_6798E8C4_679AC3B6,
  0x679CB9FB_679DD6A6_679EE8C8_67A2CAE0_67A3D4E6_67A5E8C0_67A7E8C5_67A8E8C7,
  0x67AAC7B9_67ABB7E3_67ADE8C9_67AFBFDD_67B0E8D2_67B3E8D7_67B5E8D5_67B6BCDC,
  0x67B7BCCF_67B8E8DB_67C1E8DE_67C3E8DA_67C4B1FA_67CFB0D8_67D0C4B3_67D1B8CC,
  0x67D2C6E2_67D3C8BE_67D4C8E1_67D8E8CF_67D9E8D4_67DAE8D6_67DCB9F1_67DDE8D8,
  0x67DED7F5_67E0C4FB_67E2E8DC_67E5B2E9_67E9E8D1_67ECBCED_67EFBFC2_67F0E8CD,
  0x67F1D6F9_67F3C1F8_67F4B2F1_67FDE8DF_67FFCAC1_6800E8D9_6805D5A4_6807B1EA,
  0x6808D5BB_6809E8CE_680AE8D0_680BB6B0_680CE8D3_680EE8DD_680FC0B8_6811CAF7,
  0x6813CBA8_6816C6DC_6817C0F5_681DE8E9_6821D0A3_6829E8F2_682AD6EA_6832E8E0,
  0x6833E8E1_6837D1F9_6838BACB_6839B8F9_683CB8F1_683DD4D4_683EE8EF_6840E8EE,
  0x6841E8EC_6842B9F0_6843CCD2_6844E8E6_6845CEA6_6846BFF2_6848B0B8_6849E8F1,
  0x684AE8F0_684CD7C0_684EE8E4_6850CDA9_6851C9A3_6853BBB8_6854BDDB_6855E8EA,
  0x6860E8E2_6861E8E3_6862E8E5_6863B5B5_6864E8E7_6865C7C5_6866E8EB_6867E8ED,
  0x6868BDB0_6869D7AE_686BE8F8_6874E8F5_6876CDB0_6877E8F6_6881C1BA_6883E8E8,
  0x6885C3B7_6886B0F0_688FE8F4_6893E8F7_6897B9A3_68A2C9D2_68A6C3CE_68A7CEE0,
  0x68A8C0E6_68ADCBF3_68AFCCDD_68B0D0B5_68B3CAE1_68B5E8F3_68C0BCEC_68C2E8F9,
  0x68C9C3DE_68CBC6E5_68CDB9F7_68D2B0F4_68D5D7D8_68D8BCAC_68DAC5EF_68E0CCC4,
  0x68E3E9A6_68EEC9AD_68F0E9A2_68F1C0E2_68F5BFC3_68F9E8FE_68FAB9D7_68FCE8FB,
  0x6901E9A4_6905D2CE_690BE9A3_690DD6B2_690ED7B5_6910E9A7_6912BDB7_691FE8FC,
  0x6920E8FD_6924E9A1_692DCDD6_6930D2AC_6934E9B2_6939E9A9_693DB4AA_693FB4BB,
  0x6942E9AB_6954D0A8_6957E9A5_695AB3FE_695DE9AC_695EC0E3_6960E9AA_6963E9B9,
  0x6966E9B8_696BE9AE_696EE8FA_6971E9A8_6977BFAC_6978E9B1_6979E9BA_697CC2A5,
  0x6980E9AF_6982B8C5_6984E9AD_6986D3DC_6987E9B4_6988E9B5_6989E9B7_698DE9C7,
  0x6994C0C6_6995E9C5_6998E9B0_699BE9BB_699CB0F1_69A7E9BC_69A8D5A5_69ABE9BE,
  0x69ADE9BF_69B1E9C1_69B4C1F1_69B7C8B6_69BBE9BD_69C1E9C2_69CAE9C3_69CCE9B3,
  0x69CEE9B6_69D0BBB1_69D4E9C0_69DBBCF7_69DFE9C4_69E0E9C6_69EDE9CA_69F2E9CE,
  0x69FDB2DB_69FFE9C8_6A0AB7AE_6A17E9CB_6A18E9CC_6A1FD5C1_6A21C4A3_6A28E9D8,
  0x6A2ABAE1_6A2FE9C9_6A31D3A3_6A35E9D4_6A3DE9D7_6A3EE9D0_6A44E9CF_6A47C7C1,
  0x6A50E9D2_6A58E9D9_6A59B3C8_6A5BE9D3_6A61CFF0_6A65E9CD_6A71B3F7_6A79E9D6,
  0x6A7CE9DA_6A80CCB4_6A84CFAD_6A8EE9D5_6A90E9DC_6A91E9DB_6A97E9DE_6AA0E9D1,
  0x6AA9E9DD_6AABE9DF_6AACC3CA_6B20C7B7_6B21B4CE_6B22BBB6_6B23D0C0_6B24ECA3,
  0x6B27C5B7_6B32D3FB_6B37ECA4_6B39ECA5_6B3AC6DB_6B3EBFEE_6B43ECA6_6B46ECA7,
  0x6B47D0AA_6B49C7B8_6B4CB8E8_6B59ECA8_6B62D6B9_6B63D5FD_6B64B4CB_6B65B2BD,
  0x6B66CEE4_6B67C6E7_6B6ACDE1_6B79B4F5_6B7BCBC0_6B7CBCDF_6B81E9E2_6B82E9E3,
  0x6B83D1EA_6B84E9E5_6B86B4F9_6B87E9E4_6B89D1B3_6B8ACAE2_6B8BB2D0_6B8DE9E8,
  0x6B92E9E6_6B93E9E7_6B96D6B3_6B9AE9E9_6B9BE9EA_6BA1E9EB_6BAAE9EC_6BB3ECAF,
  0x6BB4C5B9_6BB5B6CE_6BB7D2F3_6BBFB5EE_6BC1BBD9_6BC2ECB1_6BC5D2E3_6BCBCEE3,
  0x6BCDC4B8_6BCFC3BF_6BD2B6BE_6BD3D8B9_6BD4B1C8_6BD5B1CF_6BD6B1D1_6BD7C5FE,
  0x6BD9B1D0_6BDBC3AB_6BE1D5B1_6BEAEBA4_6BEBBAC1_6BEFCCBA_6BF3EBA5_6BF5EBA7,
  0x6BF9EBA8_6BFDEBA6_6C05EBA9_6C06EBAB_6C07EBAA_6C0DEBAC_6C0FCACF_6C10D8B5,
  0x6C11C3F1_6C13C3A5_6C14C6F8_6C15EBAD_6C16C4CA_6C18EBAE_6C19EBAF_6C1AEBB0,
  0x6C1BB7D5_6C1FB7FA_6C21EBB1_6C22C7E2_6C24EBB3_6C26BAA4_6C27D1F5_6C28B0B1,
  0x6C29EBB2_6C2AEBB4_6C2EB5AA_6C2FC2C8_6C30C7E8_6C32EBB5_6C34CBAE_6C35E3DF,
  0x6C38D3C0_6C3DD9DB_6C40CDA1_6C41D6AD_6C42C7F3_6C46D9E0_6C47BBE3_6C49BABA,
  0x6C4AE3E2_6C50CFAB_6C54E3E0_6C55C9C7_6C57BAB9_6C5BD1B4_6C5CE3E1_6C5DC8EA,
  0x6C5EB9AF_6C5FBDAD_6C60B3D8_6C61CEDB_6C64CCC0_6C68E3E8_6C69E3E9_6C6ACDF4,
  0x6C70CCAD_6C72BCB3_6C74E3EA_6C76E3EB_6C79D0DA_6C7DC6FB_6C7EB7DA_6C81C7DF,
  0x6C82D2CA_6C83CED6_6C85E3E4_6C86E3EC_6C88C9F2_6C89B3C1_6C8CE3E7_6C8FC6E3,
  0x6C90E3E5_6C93EDB3_6C94E3E6_6C99C9B3_6C9BC5E6_6C9FB9B5_6CA1C3BB_6CA3E3E3,
  0x6CA4C5BD_6CA5C1A4_6CA6C2D9_6CA7B2D7_6CA9E3ED_6CAABBA6_6CABC4AD_6CADE3F0,
  0x6CAEBEDA_6CB1E3FB_6CB2E3F5_6CB3BAD3_6CB8B7D0_6CB9D3CD_6CBBD6CE_6CBCD5D3,
  0x6CBDB9C1_6CBED5B4_6CBFD1D8_6CC4D0B9_6CC5C7F6_6CC9C8AA_6CCAB2B4_6CCCC3DA,
  0x6CD0E3EE_6CD3E3FC_6CD4E3EF_6CD5B7A8_6CD6E3F7_6CD7E3F4_6CDBB7BA_6CDEC5A2,
  0x6CE0E3F6_6CE1C5DD_6CE2B2A8_6CE3C6FC_6CE5C4E0_6CE8D7A2_6CEAC0E1_6CEBE3F9,
  0x6CEEE3FA_6CEFE3FD_6CF0CCA9_6CF1E3F3_6CF3D3BE_6CF5B1C3_6CF6EDB4_6CF7E3F1,
  0x6CF8E3F2_6CFAE3F8_6CFBD0BA_6CFCC6C3_6CFDD4F3_6CFEE3FE_6D01BDE0_6D04E4A7,
  0x6D07E4A6_6D0BD1F3_6D0CE4A3_6D0EE4A9_6D12C8F7_6D17CFB4_6D19E4A8_6D1AE4AE,
  0x6D1BC2E5_6D1EB6B4_6D25BDF2_6D27E4A2_6D2ABAE9_6D2BE4AA_6D2EE4AC_6D31B6FD,
  0x6D32D6DE_6D33E4B2_6D35E4AD_6D39E4A1_6D3BBBEE_6D3CCDDD_6D3DC7A2_6D3EC5C9,
  0x6D41C1F7_6D43E4A4_6D45C7B3_6D46BDAC_6D47BDBD_6D48E4A5_6D4AD7C7_6D4BB2E2,
  0x6D4DE4AB_6D4EBCC3_6D4FE4AF_6D51BBEB_6D52E4B0_6D53C5A8_6D54E4B1_6D59D5E3,
  0x6D5ABFA3_6D5CE4BA_6D5EE4B7_6D60E4BB_6D63E4BD_6D66C6D6_6D69BAC6_6D6AC0CB,
  0x6D6EB8A1_6D6FE4B4_6D74D4A1_6D77BAA3_6D78BDFE_6D7CE4BC_6D82CDBF_6D85C4F9,
  0x6D88CFFB_6D89C9E6_6D8CD3BF_6D8ECFD1_6D91E4B3_6D93E4B8_6D94E4B9_6D95CCE9,
  0x6D9BCCCE_6D9DC0D4_6D9EE4B5_6D9FC1B0_6DA0E4B6_6DA1CED0_6DA3BBC1_6DA4B5D3,
  0x6DA6C8F3_6DA7BDA7_6DA8D5C7_6DA9C9AC_6DAAB8A2_6DABE4CA_6DAEE4CC_6DAFD1C4,
  0x6DB2D2BA_6DB5BAAD_6DB8BAD4_6DBFE4C3_6DC0B5ED_6DC4D7CD_6DC5E4C0_6DC6CFFD,
  0x6DC7E4BF_6DCBC1DC_6DCCCCCA_6DD1CAE7_6DD6C4D7_6DD8CCD4_6DD9E4C8_6DDDE4C7,
  0x6DDEE4C1_6DE0E4C4_6DE1B5AD_6DE4D3D9_6DE6E4C6_6DEBD2F9_6DECB4E3_6DEEBBB4,
  0x6DF1C9EE_6DF3B4BE_6DF7BBEC_6DF9D1CD_6DFBCCED_6DFCEDB5_6E05C7E5_6E0AD4A8,
  0x6E0CE4CB_6E0DD7D5_6E0EE4C2_6E10BDA5_6E11E4C5_6E14D3E6_6E16E4C9_6E17C9F8,
  0x6E1AE4BE_6E1DD3E5_6E20C7FE_6E21B6C9_6E23D4FC_6E24B2B3_6E25E4D7_6E29CEC2,
  0x6E2BE4CD_6E2DCEBC_6E2FB8DB_6E32E4D6_6E34BFCA_6E38D3CE_6E3AC3EC_6E43C5C8,
  0x6E44E4D8_6E4DCDC4_6E4EE4CF_6E53E4D4_6E54E4D5_6E56BAFE_6E58CFE6_6E5BD5BF,
  0x6E5FE4D2_6E6BE4D0_6E6EE4CE_6E7ECDE5_6E7FCAAA_6E83C0A3_6E85BDA6_6E86E4D3,
  0x6E89B8C8_6E8FE4E7_6E90D4B4_6E98E4DB_6E9CC1EF_6E9FE4E9_6EA2D2E7_6EA5E4DF,
  0x6EA7E4E0_6EAACFAA_6EAFCBDD_6EB1E4DA_6EB2E4D1_6EB4E4E5_6EB6C8DC_6EB7E4E3,
  0x6EBAC4E7_6EBBE4E2_6EBDE4E1_6EC1B3FC_6EC2E4E8_6EC7B5E1_6ECBD7CC_6ECFE4E6,
  0x6ED1BBAC_6ED3D7D2_6ED4CCCF_6ED5EBF8_6ED7E4E4_6EDAB9F6_6EDED6CD_6EDFE4D9,
  0x6EE0E4DC_6EE1C2FA_6EE2E4DE_6EE4C2CB_6EE5C0C4_6EE6C2D0_6EE8B1F5_6EE9CCB2,
  0x6EF4B5CE_6EF9E4EF_6F02C6AF_6F06C6E1_6F09E4F5_6F0FC2A9_6F13C0EC_6F14D1DD,
  0x6F15E4EE_6F20C4AE_6F24E4ED_6F29E4F6_6F2AE4F4_6F2BC2FE_6F2DE4DD_6F2FE4F0,
  0x6F31CAFE_6F33D5C4_6F36E4F1_6F3ED1FA_6F46E4EB_6F47E4EC_6F4BE4F2_6F4DCEAB,
  0x6F58C5CB_6F5CC7B1_6F5EC2BA_6F62E4EA_6F66C1CA_6F6DCCB6_6F6EB3B1_6F72E4FB,
  0x6F74E4F3_6F78E4FA_6F7AE4FD_6F7CE4FC_6F84B3CE_6F88B3BA_6F89E4F7_6F8CE4F9,
  0x6F8DE4F8_6F8EC5EC_6F9CC0BD_6FA1D4E8_6FA7E5A2_6FB3B0C4_6FB6E5A4_6FB9E5A3,
  0x6FC0BCA4_6FC2E5A5_6FC9E5A1_6FD1E4FE_6FD2B1F4_6FDEE5A8_6FE0E5A9_6FE1E5A6,
  0x6FEEE5A7_6FEFE5AA_7011C6D9_701AE5AB_701BE5AD_7023E5AC_7035E5AF_7039E5AE,
  0x704CB9E0_704FE5B0_705EE5B1_706BBBF0_706CECE1_706DC3F0_706FB5C6_7070BBD2,
  0x7075C1E9_7076D4EE_7078BEC4_707CD7C6_707ED4D6_707FB2D3_7080ECBE_7085EAC1,
  0x7089C2AF_708AB4B6_708ED1D7_7092B3B4_7094C8B2_7095BFBB_7096ECC0_7099D6CB,
  0x709CECBF_709DECC1_70ABECC5_70ACBEE6_70ADCCBF_70AEC5DA_70AFBEBC_70B1ECC6,
  0x70B3B1FE_70B7ECC4_70B8D5A8_70B9B5E3_70BBECC2_70BCC1B6_70BDB3E3_70C0ECC3,
  0x70C1CBB8_70C2C0C3_70C3CCFE_70C8C1D2_70CAECC8_70D8BAE6_70D9C0D3_70DBD6F2,
  0x70DFD1CC_70E4BFBE_70E6B7B3_70E7C9D5_70E8ECC7_70E9BBE2_70EBCCCC_70ECBDFD,
  0x70EDC8C8_70EFCFA9_70F7CDE9_70F9C5EB_70FDB7E9_7109D1C9_710ABAB8_7110ECC9,
  0x7113ECCA_7115BBC0_7116ECCB_7118ECE2_7119B1BA_711AB7D9_7126BDB9_712FECCC,
  0x7130D1E6_7131ECCD_7136C8BB_7145ECD1_714AECD3_714CBBCD_714EBCE5_715CECCF,
  0x715EC9B7_7164C3BA_7166ECE3_7167D5D5_7168ECD0_716ED6F3_7172ECD2_7173ECCE,
  0x7178ECD4_717AECD5_717DC9BF_7184CFA8_718AD0DC_718FD1AC_7194C8DB_7198ECD6,
  0x7199CEF5_719FCAEC_71A0ECDA_71A8ECD9_71ACB0BE_71B3ECD7_71B5ECD8_71B9ECE4,
  0x71C3C8BC_71CEC1C7_71D4ECDC_71D5D1E0_71E0ECDB_71E5D4EF_71E7ECDD_71EEDBC6,
  0x71F9ECDE_7206B1AC_721DECDF_7228ECE0_722AD7A6_722CC5C0_7230EBBC_7231B0AE,
  0x7235BEF4_7236B8B8_7237D2AF_7238B0D6_7239B5F9_723BD8B3_723DCBAC_723FE3DD,
  0x7247C6AC_7248B0E6_724CC5C6_724DEBB9_7252EBBA_7256EBBB_7259D1C0_725BC5A3,
  0x725DEAF2_725FC4B2_7261C4B5_7262C0CE_7266EAF3_7267C4C1_7269CEEF_726EEAF0,
  0x726FEAF4_7272C9FC_7275C7A3_7279CCD8_727ACEFE_727EEAF5_727FEAF6_7280CFAC,
  0x7281C0E7_7284EAF7_728AB6BF_728BEAF8_728DEAF9_728FEAFA_7292EAFB_729FEAF1,
  0x72ACC8AE_72ADE1EB_72AFB7B8_72B0E1EC_72B4E1ED_72B6D7B4_72B7E1EE_72B8E1EF,
  0x72B9D3CC_72C1E1F1_72C2BFF1_72C3E1F0_72C4B5D2_72C8B1B7_72CDE1F3_72CEE1F2,
  0x72D0BAFC_72D2E1F4_72D7B9B7_72D9BED1_72DEC4FC_72E0BADD_72E1BDC6_72E8E1F5,
  0x72E9E1F7_72ECB6C0_72EDCFC1_72EECAA8_72EFE1F6_72F0D5F8_72F1D3FC_72F2E1F8,
  0x72F3E1FC_72F4E1F9_72F7E1FA_72F8C0EA_72FAE1FE_72FBE2A1_72FCC0C7_7301E1FB,
  0x7303E1FD_730AE2A5_730EC1D4_7313E2A3_7315E2A8_7316B2FE_7317E2A2_731BC3CD,
  0x731CB2C2_731DE2A7_731EE2A6_7321E2A4_7322E2A9_7325E2AB_7329D0C9_732AD6ED,
  0x732BC3A8_732CE2AC_732ECFD7_7331E2AE_7334BAEF_7337E9E0_7338E2AD_7339E2AA,
  0x733EBBAB_733FD4B3_734DE2B0_7350E2AF_7352E9E1_7357E2B1_7360E2B2_736CE2B3,
  0x736DCCA1_736FE2B4_737EE2B5_7384D0FE_7387C2CA_7389D3F1_738BCDF5_738EE7E0,
  0x7391E7E1_7396BEC1_739BC2EA_739FE7E4_73A2E7E3_73A9CDE6_73ABC3B5_73AEE7E2,
  0x73AFBBB7_73B0CFD6_73B2C1E1_73B3E7E9_73B7E7E8_73BAE7F4_73BBB2A3_73C0E7EA,
  0x73C2E7E6_73C8E7EC_73C9E7EB_73CAC9BA_73CDD5E4_73CFE7E5_73D0B7A9_73D1E7E7,
  0x73D9E7EE_73DEE7F3_73E0D6E9_73E5E7ED_73E7E7F2_73E9E7F1_73EDB0E0_73F2E7F5,
  0x7403C7F2_7405C0C5_7406C0ED_7409C1F0_740AE7F0_740FE7F6_7410CBF6_741AE8A2,
  0x741BE8A1_7422D7C1_7425E7FA_7426E7F9_7428E7FB_742AE7F7_742CE7FE_742EE7FD,
  0x7430E7FC_7433C1D5_7434C7D9_7435C5FD_7436C5C3_743CC7ED_7441E8A3_7455E8A6,
  0x7457E8A5_7459E8A7_745ABAF7_745BE7F8_745CE8A4_745EC8F0_745FC9AA_746DE8A9,
  0x7470B9E5_7476D1FE_7477E8A8_747EE8AA_7480E8AD_7481E8AE_7483C1A7_7487E8AF,
  0x748BE8B0_748EE8AC_7490E8B4_749CE8AB_749EE8B1_74A7E8B5_74A8E8B2_74A9E8B3,
  0x74BAE8B7_74D2E8B6_74DCB9CF_74DEF0AC_74E0F0AD_74E2C6B0_74E3B0EA_74E4C8BF,
  0x74E6CDDF_74EECECD_74EFEAB1_74F4EAB2_74F6C6BF_74F7B4C9_74FFEAB3_7504D5E7,
  0x750DDDF9_750FEAB4_7511EAB5_7513EAB6_7518B8CA_7519DFB0_751AC9F5_751CCCF0,
  0x751FC9FA_7525C9FB_7528D3C3_7529CBA6_752BB8A6_752CF0AE_752DB1C2_752FE5B8,
  0x7530CCEF_7531D3C9_7532BCD7_7533C9EA_7535B5E7_7537C4D0_7538B5E9_753AEEAE,
  0x753BBBAD_753EE7DE_7540EEAF_7545B3A9_7548EEB2_754BEEB1_754CBDE7_754EEEB0,
  0x754FCEB7_7554C5CF_7559C1F4_755ADBCE_755BEEB3_755CD0F3_7565C2D4_7566C6E8,
  0x756AB7AC_7572EEB4_7574B3EB_7578BBFB_7579EEB5_757FE7DC_7583EEB6_7586BDAE,
  0x758BF1E2_758FCAE8_7591D2C9_7592F0DA_7594F0DB_7596F0DC_7597C1C6_7599B8ED,
  0x759ABECE_759DF0DE_759FC5B1_75A0F0DD_75A1D1F1_75A3F0E0_75A4B0CC_75A5BDEA,
  0x75ABD2DF_75ACF0DF_75AEB4AF_75AFB7E8_75B0F0E6_75B1F0E5_75B2C6A3_75B3F0E1,
  0x75B4F0E2_75B5B4C3_75B8F0E3_75B9D5EE_75BCCCDB_75BDBED2_75BEBCB2_75C2F0E8,
  0x75C3F0E7_75C4F0E4_75C5B2A1_75C7D6A2_75C8D3B8_75C9BEB7_75CAC8AC_75CDF0EA,
  0x75D2D1F7_75D4D6CC_75D5BADB_75D6F0E9_75D8B6BB_75DBCDB4_75DEC6A6_75E2C1A1,
  0x75E3F0EB_75E4F0EE_75E6F0ED_75E7F0F0_75E8F0EC_75EABBBE_75EBF0EF_75F0CCB5,
  0x75F1F0F2_75F4B3D5_75F9B1D4_75FCF0F3_75FFF0F4_7600F0F6_7601B4E1_7603F0F1,
  0x7605F0F7_760AF0FA_760CF0F8_7610F0F5_7615F0FD_7617F0F9_7618F0FC_7619F0FE,
  0x761BF1A1_761FCEC1_7620F1A4_7622F1A3_7624C1F6_7625F0FB_7626CADD_7629B4F1,
  0x762AB1F1_762BCCB1_762DF1A6_7630F1A7_7633F1AC_7634D5CE_7635F1A9_7638C8B3,
  0x763CF1A2_763EF1AB_763FF1A8_7640F1A5_7643F1AA_764CB0A9_764DF1AD_7654F1AF,
  0x7656F1B1_765CF1B0_765EF1AE_7663D1A2_766BF1B2_766FF1B3_7678B9EF_767BB5C7,
  0x767DB0D7_767EB0D9_7682D4ED_7684B5C4_7686BDD4_7687BBCA_7688F0A7_768BB8DE,
  0x768EF0A8_7691B0A8_7693F0A9_7696CDEE_7699F0AA_76A4F0AB_76AEC6A4_76B1D6E5,
  0x76B2F1E4_76B4F1E5_76BFC3F3_76C2D3DB_76C5D6D1_76C6C5E8_76C8D3AF_76CAD2E6,
  0x76CDEEC1_76CEB0BB_76CFD5B5_76D0D1CE_76D1BCE0_76D2BAD0_76D4BFF8_76D6B8C7,
  0x76D7B5C1_76D8C5CC_76DBCAA2_76DFC3CB_76E5EEC2_76EEC4BF_76EFB6A2_76F1EDEC,
  0x76F2C3A4_76F4D6B1_76F8CFE0_76F9EDEF_76FCC5CE_76FEB6DC_7701CAA1_7704EDED,
  0x7707EDF0_7708EDF1_7709C3BC_770BBFB4_770DEDEE_7719EDF4_771AEDF2_771FD5E6,
  0x7720C3DF_7722EDF3_7726EDF6_7728D5A3_7729D1A3_772DEDF5_772FC3D0_7735EDF7,
  0x7736BFF4_7737BEEC_7738EDF8_773ACCF7_773CD1DB_7740D7C5_7741D5F6_7743EDFC,
  0x7747EDFB_7750EDF9_7751EDFA_775AEDFD_775BBEA6_7761CBAF_7762EEA1_7763B6BD,
  0x7765EEA2_7766C4C0_7768EDFE_776BBDDE_776CB2C7_7779B6C3_777DEEA5_777ED8BA,
  0x777FEEA3_7780EEA6_7784C3E9_7785B3F2_778CEEA7_778DEEA4_778ECFB9_7791EEA8,
  0x7792C2F7_779FEEA9_77A0EEAA_77A2DEAB_77A5C6B3_77A7C7C6_77A9D6F5_77AAB5C9,
  0x77ACCBB2_77B0EEAB_77B3CDAB_77B5EEAC_77BBD5B0_77BDEEAD_77BFF6C4_77CDDBC7,
  0x77D7B4A3_77DBC3AC_77DCF1E6_77E2CAB8_77E3D2D3_77E5D6AA_77E7EFF2_77E9BED8,
  0x77EBBDC3_77ECEFF3_77EDB6CC_77EEB0AB_77F3CAAF_77F6EDB6_77F8EDB7_77FDCEF9,
  0x77FEB7AF_77FFBFF3_7800EDB8_7801C2EB_7802C9B0_7809EDB9_780CC6F6_780DBFB3,
  0x7811EDBC_7812C5F8_7814D1D0_7816D7A9_7817EDBA_7818EDBB_781AD1E2_781CEDBF,
  0x781DEDC0_781FEDC4_7823EDC8_7825EDC6_7826EDCE_7827D5E8_7829EDC9_782CEDC7,
  0x782DEDBE_7830C5E9_7834C6C6_7837C9E9_7838D4D2_7839EDC1_783AEDC2_783BEDC3,
  0x783CEDC5_783EC0F9_7840B4A1_7845B9E8_7847EDD0_784CEDD1_784EEDCA_7850EDCF,
  0x7852CEF8_7855CBB6_7856EDCC_7857EDCD_785DCFF5_786AEDD2_786BC1F2_786CD3B2,
  0x786DEDCB_786EC8B7_7877BCEF_787CC5F0_7887EDD6_7889B5EF_788CC2B5_788DB0AD,
  0x788ECBE9_7891B1AE_7893EDD4_7897CDEB_7898B5E2_789AEDD5_789BEDD3_789CEDD7,
  0x789FB5FA_78A1EDD8_78A3EDD9_78A5EDDC_78A7B1CC_78B0C5F6_78B1BCEE_78B2EDDA,
  0x78B3CCBC_78B4B2EA_78B9EDDB_78BEC4EB_78C1B4C5_78C5B0F5_78C9EDDF_78CAC0DA,
  0x78CBB4E8_78D0C5CD_78D4EDDD_78D5BFC4_78D9EDDE_78E8C4A5_78ECEDE0_78F2EDE1,
  0x78F4EDE3_78F7C1D7_78FABBC7_7901BDB8_7905EDE2_7913EDE4_791EEDE6_7924EDE5,
  0x7934EDE7_793ACABE_793BECEA_793CC0F1_793EC9E7_7940ECEB_7941C6EE_7946ECEC,
  0x7948C6ED_7949ECED_7953ECF0_7956D7E6_7957ECF3_795AECF1_795BECEE_795CECEF,
  0x795DD7A3_795EC9F1_795FCBEE_7960ECF4_7962ECF2_7965CFE9_7967ECF6_7968C6B1,
  0x796DBCC0_796FECF5_7977B5BB_7978BBF6_797AECF7_7980D9F7_7981BDFB_7984C2BB,
  0x7985ECF8_798AECF9_798FB8A3_799AECFA_79A7ECFB_79B3ECFC_79B9D3ED_79BAD8AE,
  0x79BBC0EB_79BDC7DD_79BEBACC_79C0D0E3_79C1CBBD_79C3CDBA_79C6B8D1_79C9B1FC,
  0x79CBC7EF_79CDD6D6_79D1BFC6_79D2C3EB_79D5EFF5_79D8C3D8_79DFD7E2_79E3EFF7,
  0x79E4B3D3_79E6C7D8_79E7D1ED_79E9D6C8_79EBEFF8_79EDEFF6_79EFBBFD_79F0B3C6,
  0x79F8BDD5_79FBD2C6_79FDBBE0_7A00CFA1_7A02EFFC_7A03EFFB_7A06EFF9_7A0BB3CC,
  0x7A0DC9D4_7A0ECBB0_7A14EFFE_7A17B0DE_7A1AD6C9_7A1EEFFD_7A20B3ED_7A23F6D5,
  0x7A33CEC8_7A37F0A2_7A39F0A1_7A3BB5BE_7A3CBCDA_7A3DBBFC_7A3FB8E5_7A46C4C2,
  0x7A51F0A3_7A57CBEB_7A70F0A6_7A74D1A8_7A76BEBF_7A77C7EE_7A78F1B6_7A79F1B7,
  0x7A7ABFD5_7A7FB4A9_7A80F1B8_7A81CDBB_7A83C7D4_7A84D5AD_7A86F1B9_7A88F1BA,
  0x7A8DC7CF_7A91D2A4_7A92D6CF_7A95F1BB_7A96BDD1_7A97B4B0_7A98BEBD_7A9CB4DC,
  0x7A9DCED1_7A9FBFDF_7AA0F1BD_7AA5BFFA_7AA6F1BC_7AA8F1BF_7AACF1BE_7AADF1C0,
  0x7AB3F1C1_7ABFC1FE_7ACBC1A2_7AD6CAFA_7AD9D5BE_7ADEBEBA_7ADFBEB9_7AE0D5C2,
  0x7AE3BFA2_7AE5CDAF_7AE6F1B5_7AEDBDDF_7AEFB6CB_7AF9D6F1_7AFAF3C3_7AFDF3C4,
  0x7AFFB8CD_7B03F3C6_7B04F3C7_7B06B0CA_7B08F3C5_7B0AF3C9_7B0BCBF1_7B0FF3CB,
  0x7B11D0A6_7B14B1CA_7B15F3C8_7B19F3CF_7B1BB5D1_7B1EF3D7_7B20F3D2_7B24F3D4,
  0x7B25F3D3_7B26B7FB_7B28B1BF_7B2AF3CE_7B2BF3CA_7B2CB5DA_7B2EF3D0_7B31F3D1,
  0x7B33F3D5_7B38F3CD_7B3ABCE3_7B3CC1FD_7B3EF3D6_7B45F3DA_7B47F3CC_7B49B5C8,
  0x7B4BBDEE_7B4CF3DC_7B4FB7A4_7B50BFF0_7B51D6FE_7B52CDB2_7B54B4F0_7B56B2DF,
  0x7B58F3D8_7B5AF3D9_7B5BC9B8_7B5DF3DD_7B60F3DE_7B62F3E1_7B6EF3DF_7B71F3E3,
  0x7B72F3E2_7B75F3DB_7B77BFEA_7B79B3EF_7B7BF3E0_7B7EC7A9_7B80BCF2_7B85F3EB,
  0x7B8DB9BF_7B90F3E4_7B94B2AD_7B95BBFE_7B97CBE3_7B9CF3ED_7B9DF3E9_7BA1B9DC,
  0x7BA2F3EE_7BA6F3E5_7BA7F3E6_7BA8F3EA_7BA9C2E1_7BAAF3EC_7BABF3EF_7BACF3E8,
  0x7BADBCFD_7BB1CFE4_7BB4F3F0_7BB8F3E7_7BC1F3F2_7BC6D7AD_7BC7C6AA_7BCCF3F3,
  0x7BD1F3F1_7BD3C2A8_7BD9B8DD_7BDAF3F5_7BDDF3F4_7BE1B4DB_7BE5F3F6_7BE6F3F7,
  0x7BEAF3F8_7BEEC0BA_7BF1C0E9_7BF7C5F1_7BFCF3FB_7BFEF3FA_7C07B4D8_7C0BF3FE,
  0x7C0CF3F9_7C0FF3FC_7C16F3FD_7C1FF4A1_7C26F4A3_7C27BBC9_7C2AF4A2_7C38F4A4,
  0x7C3FB2BE_7C40F4A6_7C41F4A5_7C4DBCAE_7C73C3D7_7C74D9E1_7C7BC0E0_7C7CF4CC,
  0x7C7DD7D1_7C89B7DB_7C91F4CE_7C92C1A3_7C95C6C9_7C97B4D6_7C98D5B3_7C9CF4D0,
  0x7C9DF4CF_7C9EF4D1_7C9FCBDA_7CA2F4D2_7CA4D4C1_7CA5D6E0_7CAAB7E0_7CAEC1B8,
  0x7CB1C1BB_7CB2F4D3_7CB3BEAC_7CB9B4E2_7CBCF4D4_7CBDF4D5_7CBEBEAB_7CC1F4D6,
  0x7CC5F4DB_7CC7F4D7_7CC8F4DA_7CCABAFD_7CCCF4D8_7CCDF4D9_7CD5B8E2_7CD6CCC7,
  0x7CD7F4DC_7CD9B2DA_7CDCC3D3_7CDFD4E3_7CE0BFB7_7CE8F4DD_7CEFC5B4_7CF8F4E9,
  0x7CFBCFB5_7D0ACEC9_7D20CBD8_7D22CBF7_7D27BDF4_7D2BD7CF_7D2FC0DB_7D6ED0F5,
  0x7D77F4EA_7DA6F4EB_7DAEF4EC_7E3BF7E3_7E41B7B1_7E47F4ED_7E82D7EB_7E9BF4EE,
  0x7E9FE6F9_7EA0BEC0_7EA1E6FA_7EA2BAEC_7EA3E6FB_7EA4CFCB_7EA5E6FC_7EA6D4BC,
  0x7EA7BCB6_7EA8E6FD_7EA9E6FE_7EAABCCD_7EABC8D2_7EACCEB3_7EADE7A1_7EAFB4BF,
  0x7EB0E7A2_7EB1C9B4_7EB2B8D9_7EB3C4C9_7EB5D7DD_7EB6C2DA_7EB7B7D7_7EB8D6BD,
  0x7EB9CEC6_7EBAB7C4_7EBDC5A6_7EBEE7A3_7EBFCFDF_7EC0E7A4_7EC1E7A5_7EC2E7A6,
  0x7EC3C1B7_7EC4D7E9_7EC5C9F0_7EC6CFB8_7EC7D6AF_7EC8D6D5_7EC9E7A7_7ECAB0ED,
  0x7ECBE7A8_7ECCE7A9_7ECDC9DC_7ECED2EF_7ECFBEAD_7ED0E7AA_7ED1B0F3_7ED2C8DE,
  0x7ED3BDE1_7ED4E7AB_7ED5C8C6_7ED7E7AC_7ED8BBE6_7ED9B8F8_7EDAD1A4_7EDBE7AD,
  0x7EDCC2E7_7EDDBEF8_7EDEBDCA_7EDFCDB3_7EE0E7AE_7EE1E7AF_7EE2BEEE_7EE3D0E5,
  0x7EE5CBE7_7EE6CCD0_7EE7BCCC_7EE8E7B0_7EE9BCA8_7EEAD0F7_7EEBE7B1_7EEDD0F8,
  0x7EEEE7B2_7EEFE7B3_7EF0B4C2_7EF1E7B4_7EF2E7B5_7EF3C9FE_7EF4CEAC_7EF5C3E0,
  0x7EF6E7B7_7EF7B1C1_7EF8B3F1_7EFAE7B8_7EFBE7B9_7EFCD7DB_7EFDD5C0_7EFEE7BA,
  0x7EFFC2CC_7F00D7BA_7F01E7BB_7F02E7BC_7F03E7BD_7F04BCEA_7F05C3E5_7F06C0C2,
  0x7F07E7BE_7F08E7BF_7F09BCA9_7F0BE7C0_7F0CE7C1_7F0DE7B6_7F0EB6D0_7F0FE7C2,
  0x7F11E7C3_7F12E7C4_7F13BBBA_7F14B5DE_7F15C2C6_7F16B1E0_7F17E7C5_7F18D4B5,
  0x7F19E7C6_7F1AB8BF_7F1BE7C8_7F1CE7C7_7F1DB7EC_7F1FE7C9_7F20B2F8_7F21E7CA,
  0x7F22E7CB_7F23E7CC_7F24E7CD_7F25E7CE_7F26E7CF_7F27E7D0_7F28D3A7_7F29CBF5,
  0x7F2AE7D1_7F2BE7D2_7F2CE7D3_7F2DE7D4_7F2EC9C9_7F2FE7D5_7F30E7D6_7F31E7D7,
  0x7F32E7D8_7F33E7D9_7F34BDC9_7F35E7DA_7F36F3BE_7F38B8D7_7F3AC8B1_7F42F3BF,
  0x7F44F3C0_7F45F3C1_7F50B9DE_7F51CDF8_7F54D8E8_7F55BAB1_7F57C2DE_7F58EEB7,
  0x7F5AB7A3_7F5FEEB9_7F61EEB8_7F62B0D5_7F68EEBB_7F69D5D6_7F6AD7EF_7F6ED6C3,
  0x7F71EEBD_7F72CAF0_7F74EEBC_7F79EEBE_7F7EEEC0_7F81EEBF_7F8AD1F2_7F8CC7BC,
  0x7F8EC3C0_7F94B8E1_7F9AC1E7_7F9DF4C6_7F9ED0DF_7F9FF4C7_7FA1CFDB_7FA4C8BA,
  0x7FA7F4C8_7FAFF4C9_7FB0F4CA_7FB2F4CB_7FB8D9FA_7FB9B8FE_7FBCE5F1_7FBDD3F0,
  0x7FBFF4E0_7FC1CECC_7FC5B3E1_7FCAF1B4_7FCCD2EE_7FCEF4E1_7FD4CFE8_7FD5F4E2,
  0x7FD8C7CC_7FDFB5D4_7FE0B4E4_7FE1F4E4_7FE5F4E3_7FE6F4E5_7FE9F4E6_7FEEF4E7,
  0x7FF0BAB2_7FF1B0BF_7FF3F4E8_7FFBB7AD_7FFCD2ED_8000D2AB_8001C0CF_8003BFBC,
  0x8004EBA3_8005D5DF_8006EAC8_800BF1F3_800CB6F8_800DCBA3_8010C4CD_8012F1E7,
  0x8014F1E8_8015B8FB_8016F1E9_8017BAC4_8018D4C5_8019B0D2_801CF1EA_8020F1EB,
  0x8022F1EC_8025F1ED_8026F1EE_8027F1EF_8028F1F1_8029F1F0_802AC5D5_8031F1F2,
  0x8033B6FA_8035F1F4_8036D2AE_8037DEC7_8038CBCA_803BB3DC_803DB5A2_803FB9A2,
  0x8042C4F4_8043F1F5_8046F1F6_804AC1C4_804BC1FB_804CD6B0_804DF1F7_8052F1F8,
  0x8054C1AA_8058C6B8_805ABEDB_8069F1F9_806AB4CF_8071F1FA_807FEDB2_8080EDB1,
  0x8083CBE0_8084D2DE_8086CBC1_8087D5D8_8089C8E2_808BC0DF_808CBCA1_8093EBC1,
  0x8096D0A4_8098D6E2_809AB6C7_809BB8D8_809CEBC0_809DB8CE_809FEBBF_80A0B3A6,
  0x80A1B9C9_80A2D6AB_80A4B7F4_80A5B7CA_80A9BCE7_80AAB7BE_80ABEBC6_80ADEBC7,
  0x80AEB0B9_80AFBFCF_80B1EBC5_80B2D3FD_80B4EBC8_80B7EBC9_80BAB7CE_80BCEBC2,
  0x80BDEBC4_80BEC9F6_80BFD6D7_80C0D5CD_80C1D0B2_80C2EBCF_80C3CEB8_80C4EBD0,
  0x80C6B5A8_80CCB1B3_80CDEBD2_80CECCA5_80D6C5D6_80D7EBD3_80D9EBD1_80DAC5DF,
  0x80DBEBCE_80DCCAA4_80DDEBD5_80DEB0FB_80E1BAFA_80E4D8B7_80E5F1E3_80E7EBCA,
  0x80E8EBCB_80E9EBCC_80EAEBCD_80EBEBD6_80ECE6C0_80EDEBD9_80EFBFE8_80F0D2C8,
  0x80F1EBD7_80F2EBDC_80F3B8EC_80F4EBD8_80F6BDBA_80F8D0D8_80FAB0B7_80FCEBDD,
  0x80FDC4DC_8102D6AC_8106B4E0_8109C2F6_810ABCB9_810DEBDA_810EEBDB_810FD4E0,
  0x8110C6EA_8111C4D4_8112EBDF_8113C5A7_8114D9F5_8116B2B1_8118EBE4_811ABDC5,
  0x811EEBE2_812CEBE3_812FB8AC_8131CDD1_8132EBE5_8136EBE1_8138C1B3_813EC6A2,
  0x8146CCF3_8148EBE6_814AC0B0_814BD2B8_814CEBE7_8150B8AF_8151B8AD_8153EBE8,
  0x8154C7BB_8155CDF3_8159EBEA_815AEBEB_8160EBED_8165D0C8_8167EBF2_8169EBEE,
  0x816DEBF1_816EC8F9_8170D1FC_8171EBEC_8174EBE9_8179B8B9_817ACFD9_817BC4E5,
  0x817CEBEF_817DEBF0_817ECCDA_817FCDC8_8180B0F2_8182EBF6_8188EBF5_818AB2B2,
  0x818FB8E0_8191EBF7_8198B1EC_819BCCC5_819CC4A4_819DCFA5_81A3EBF9_81A6ECA2,
  0x81A8C5F2_81AAEBFA_81B3C9C5_81BAE2DF_81BBEBFE_81C0CDCE_81C1ECA1_81C2B1DB,
  0x81C3D3B7_81C6D2DC_81CAEBFD_81CCEBFB_81E3B3BC_81E7EAB0_81EAD7D4_81ECF4AB,
  0x81EDB3F4_81F3D6C1_81F4D6C2_81FBD5E9_81FCBECA_81FEF4A7_8200D2A8_8201F4A8,
  0x8202F4A9_8204F4AA_8205BECB_8206D3DF_820CC9E0_820DC9E1_8210F3C2_8212CAE6,
  0x8214CCF2_821BE2B6_821CCBB4_821ECEE8_821FD6DB_8221F4AD_8222F4AE_8223F4AF,
  0x8228F4B2_822ABABD_822BF4B3_822CB0E3_822DF4B0_822FF4B1_8230BDA2_8231B2D5,
  0x8233F4B6_8234F4B7_8235B6E6_8236B2B0_8237CFCF_8238F4B4_8239B4AC_823BF4B5,
  0x823EF4B8_8244F4B9_8247CDA7_8249F4BA_824BF4BB_824FF4BC_8258CBD2_825AF4BD,
  0x825FF4BE_8268F4BF_826EF4DE_826FC1BC_8270BCE8_8272C9AB_8273D1DE_8274E5F5,
  0x8279DCB3_827AD2D5_827DDCB4_827EB0AC_827FDCB5_8282BDDA_8284DCB9_8288D8C2,
  0x828ADCB7_828BD3F3_828DC9D6_828EDCBA_828FDCB6_8291DCBB_8292C3A2_8297DCBC,
  0x8298DCC5_8299DCBD_829CCEDF_829DD6A5_829FDCCF_82A1DCCD_82A4DCD2_82A5BDE6,
  0x82A6C2AB_82A8DCB8_82A9DCCB_82AADCCE_82ABDCBE_82ACB7D2_82ADB0C5_82AEDCC7,
  0x82AFD0BE_82B0DCC1_82B1BBA8_82B3B7BC_82B4DCCC_82B7DCC6_82B8DCBF_82B9C7DB,
  0x82BDD1BF_82BEDCC0_82C1DCCA_82C4DCD0_82C7CEAD_82C8DCC2_82CADCC3_82CBDCC8,
  0x82CCDCC9_82CDB2D4_82CEDCD1_82CFCBD5_82D1D4B7_82D2DCDB_82D3DCDF_82D4CCA6,
  0x82D5DCE6_82D7C3E7_82D8DCDC_82DBBFC1_82DCDCD9_82DEB0FA_82DFB9B6_82E0DCE5,
  0x82E1DCD3_82E3DCC4_82E4DCD6_82E5C8F4_82E6BFE0_82EBC9BB_82EFB1BD_82F1D3A2,
  0x82F4DCDA_82F7DCD5_82F9C6BB_82FBDCDE_8301D7C2_8302C3AF_8303B7B6_8304C7D1,
  0x8305C3A9_8306DCE2_8307DCD8_8308DCEB_8309DCD4_830CDCDD_830EBEA5_830FDCD7,
  0x8311DCE0_8314DCE3_8315DCE4_8317DCF8_831ADCE1_831BDDA2_831CDCE7_8327BCEB,
  0x8328B4C4_832BC3A3_832CB2E7_832DDCFA_832FDCF2_8331DCEF_8333DCFC_8334DCEE,
  0x8335D2F0_8336B2E8_8338C8D7_8339C8E3_833ADCFB_833CDCED_8340DCF7_8343DCF5,
  0x8346BEA3_8347DCF4_8349B2DD_834FDCF3_8350BCF6_8351DCE8_8352BBC4_8354C0F3,
  0x835ABCD4_835BDCE9_835CDCEA_835EDCF1_835FDCF6_8360DCF9_8361B5B4_8363C8D9,
  0x8364BBE7_8365DCFE_8366DCFD_8367D3AB_8368DDA1_8369DDA3_836ADDA5_836BD2F1,
  0x836CDDA4_836DDDA6_836EDDA7_836FD2A9_8377BAC9_8378DDA9_837BDDB6_837CDDB1,
  0x837DDDB4_8385DDB0_8386C6CE_8389C0F2_838EC9AF_8392DCEC_8393DDAE_8398DDB7,
  0x839BDCF0_839CDDAF_839EDDB8_83A0DDAC_83A8DDB9_83A9DDB3_83AADDAD_83ABC4AA,
  0x83B0DDA8_83B1C0B3_83B2C1AB_83B3DDAA_83B4DDAB_83B6DDB2_83B7BBF1_83B8DDB5,
  0x83B9D3A8_83BADDBA_83BCDDBB_83BDC3A7_83C0DDD2_83C1DDBC_83C5DDD1_83C7B9BD,
  0x83CABED5_83CCBEFA_83CFBACA_83D4DDCA_83D6DDC5_83D8DDBF_83DCB2CB_83DDDDC3,
  0x83DFDDCB_83E0B2A4_83E1DDD5_83E5DDBE_83E9C6D0_83EADDD0_83F0DDD4_83F1C1E2,
  0x83F2B7C6_83F8DDCE_83F9DDCF_83FDDDC4_8401DDBD_8403DDCD_8404CCD1_8406DDC9,
  0x840BDDC2_840CC3C8_840DC6BC_840ECEAE_840FDDCC_8411DDC8_8418DDC1_841CDDC6,
  0x841DC2DC_8424D3A9_8425D3AA_8426DDD3_8427CFF4_8428C8F8_8431DDE6_8438DDC7,
  0x843CDDE0_843DC2E4_8446DDE1_8451DDD7_8457D6F8_8459DDD9_845ADDD8_845BB8F0,
  0x845CDDD6_8461C6CF_8463B6AD_8469DDE2_846BBAF9_846CD4E1_846DDDE7_8471B4D0,
  0x8473DDDA_8475BFFB_8476DDE3_8478DDDF_847ADDDD_8482B5D9_8487DDDB_8488DDDC,
  0x8489DDDE_848BBDAF_848CDDE4_848EDDE5_8497DDF5_8499C3C9_849CCBE2_84A1DDF2,
  0x84AFD8E1_84B2C6D1_84B4DDF4_84B8D5F4_84B9DDF3_84BADDF0_84BDDDEC_84BFDDEF,
  0x84C1DDE8_84C4D0EE_84C9C8D8_84CADDEE_84CDDDE9_84D0DDEA_84D1CBF2_84D3DDED,
  0x84D6B1CD_84DDC0B6_84DFBCBB_84E0DDF1_84E3DDF7_84E5DDF6_84E6DDEB_84ECC5EE,
  0x84F0DDFB_84FCDEA4_84FFDEA3_850CDDF8_8511C3EF_8513C2FB_8517D5E1_851ACEB5,
  0x851FDDFD_8521B2CC_852BC4E8_852CCADF_8537C7BE_8538DDFA_8539DDFC_853ADDFE,
  0x853BDEA2_853CB0AA_853DB1CE_8543DEAC_8548DEA6_8549BDB6_854AC8EF_8556DEA1,
  0x8559DEA5_855EDEA9_8564DEA8_8568DEA7_8572DEAD_8574D4CC_8579DEB3_857ADEAA,
  0x857BDEAE_857EC0D9_8584B1A1_8585DEB6_8587DEB1_858FDEB2_859BD1A6_859CDEB5,
  0x85A4DEAF_85A8DEB0_85AAD0BD_85AEDEB4_85AFCAED_85B0DEB9_85B7DEB8_85B9DEB7,
  0x85C1DEBB_85C9BDE5_85CFB2D8_85D0C3EA_85D3DEBA_85D5C5BA_85DCDEBC_85E4CCD9,
  0x85E9B7AA_85FBD4E5_85FFDEBD_8605DEBF_8611C4A2_8616DEC1_8627DEBE_8629DEC0,
  0x8638D5BA_863CDEC2_864DF2AE_864EBBA2_864FC2B2_8650C5B0_8651C2C7_8654F2AF,
  0x865AD0E9_865ED3DD_8662EBBD_866BB3E6_866CF2B0_866EF2B1_8671CAAD_8679BAE7,
  0x867AF2B3_867BF2B5_867CF2B4_867DCBE4_867ECFBA_867FF2B2_8680CAB4_8681D2CF,
  0x8682C2EC_868ACEC3_868BF2B8_868CB0F6_868DF2B7_8693F2BE_8695B2CF_869CD1C1,
  0x869DF2BA_86A3F2BC_86A4D4E9_86A7F2BB_86A8F2B6_86A9F2BF_86AAF2BD_86ACF2B9,
  0x86AFF2C7_86B0F2C4_86B1F2C6_86B4F2CA_86B5F2C2_86B6F2C0_86BAF2C5_86C0D6FB,
  0x86C4F2C1_86C6C7F9_86C7C9DF_86C9F2C8_86CAB9C6_86CBB5B0_86CEF2C3_86CFF2C9,
  0x86D0F2D0_86D1F2D6_86D4BBD7_86D8F2D5_86D9CDDC_86DBD6EB_86DEF2D2_86DFF2D4,
  0x86E4B8F2_86E9F2CB_86EDF2CE_86EEC2F9_86F0D5DD_86F1F2CC_86F2F2CD_86F3F2CF,
  0x86F4F2D3_86F8F2D9_86F9D3BC_86FEB6EA_8700CAF1_8702B7E4_8703F2D7_8707F2D8,
  0x8708F2DA_8709F2DD_870AF2DB_870DF2DC_8712D1D1_8713F2D1_8715CDC9_8717CECF,
  0x8718D6A9_871AF2E3_871CC3DB_871EF2E0_8721C0AF_8722F2EC_8723F2DE_8725F2E1,
  0x8729F2E8_872EF2E2_8731F2E7_8734F2E6_8737F2E9_873BF2DF_873EF2E4_873FF2EA,
  0x8747D3AC_8748F2E5_8749B2F5_874CF2F2_874ED0AB_8753F2F5_8757BBC8_8759F2F9,
  0x8760F2F0_8763F2F6_8764F2F8_8765F2FA_876EF2F3_8770F2F1_8774BAFB_8776B5FB,
  0x877BF2EF_877CF2F7_877DF2ED_877EF2EE_8782F2EB_8783F3A6_8785F3A3_8788F3A2,
  0x878BF2F4_878DC8DA_8793F2FB_8797F3A5_879FC3F8_87A8F2FD_87ABF3A7_87ACF3A9,
  0x87ADF3A4_87AFF2FC_87B3F3AB_87B5F3AA_87BAC2DD_87BDF3AE_87C0F3B0_87C6F3A1,
  0x87CAF3B1_87CBF3AC_87D1F3AF_87D2F2FE_87D3F3AD_87DBF3B2_87E0F3B4_87E5F3A8,
  0x87EAF3B3_87EEF3B5_87F9D0B7_87FEF3B8_8803D9F9_880AF3B9_8813F3B7_8815C8E4,
  0x8816F3B6_881BF3BA_8821F3BB_8822B4C0_8832EEC3_8839F3BC_883CF3BD_8840D1AA,
  0x8844F4AC_8845D0C6_884CD0D0_884DD1DC_8854CFCE_8857BDD6_8859D1C3_8861BAE2,
  0x8862E1E9_8863D2C2_8864F1C2_8865B2B9_8868B1ED_8869F1C3_886BC9C0_886CB3C4,
  0x886ED9F2_8870CBA5_8872F1C4_8877D6D4_887DF1C5_887EF4C0_887FF1C6_8881D4AC,
  0x8882F1C7_8884B0C0_8885F4C1_8888F4C2_888BB4FC_888DC5DB_8892CCBB_8896D0E4,
  0x889CCDE0_88A2F1C8_88A4D9F3_88ABB1BB_88ADCFAE_88B1B8A4_88B7F1CA_88BCF1CB,
  0x88C1B2C3_88C2C1D1_88C5D7B0_88C6F1C9_88C9F1CC_88CEF1CE_88D2D9F6_88D4D2E1,
  0x88D5D4A3_88D8F4C3_88D9C8B9_88DFF4C4_88E2F1CD_88E3F1CF_88E4BFE3_88E5F1D0,
  0x88E8F1D4_88F0F1D6_88F1F1D1_88F3C9D1_88F4C5E1_88F8C2E3_88F9B9FC_88FCF1D3,
  0x88FEF1D5_8902B9D3_890AF1DB_8910BAD6_8912B0FD_8913F1D9_8919F1D8_891AF1D2,
  0x891BF1DA_8921F1D7_8925C8EC_892ACDCA_892BF1DD_8930E5BD_8934F1DC_8936F1DE,
  0x8941F1DF_8944CFE5_895EF4C5_895FBDF3_8966F1E0_897BF1E1_897FCEF7_8981D2AA,
  0x8983F1FB_8986B8B2_89C1BCFB_89C2B9DB_89C4B9E6_89C5C3D9_89C6CAD3_89C7EAE8,
  0x89C8C0C0_89C9BEF5_89CAEAE9_89CBEAEA_89CCEAEB_89CEEAEC_89CFEAED_89D0EAEE,
  0x89D1EAEF_89D2BDC7_89D6F5FB_89DAF5FD_89DCF5FE_89DEF5FC_89E3BDE2_89E5F6A1,
  0x89E6B4A5_89EBF6A2_89EFF6A3_89F3ECB2_8A00D1D4_8A07D9EA_8A3EF6A4_8A48EEBA,
  0x8A79D5B2_8A89D3FE_8A8ACCDC_8A93CAC4_8B07E5C0_8B26F6A5_8B66BEAF_8B6CC6A9,
  0x8BA0DAA5_8BA1BCC6_8BA2B6A9_8BA3B8BC_8BA4C8CF_8BA5BCA5_8BA6DAA6_8BA7DAA7,
  0x8BA8CCD6_8BA9C8C3_8BAADAA8_8BABC6FD_8BADD1B5_8BAED2E9_8BAFD1B6_8BB0BCC7,
  0x8BB2BDB2_8BB3BBE4_8BB4DAA9_8BB5DAAA_8BB6D1C8_8BB7DAAB_8BB8D0ED_8BB9B6EF,
  0x8BBAC2DB_8BBCCBCF_8BBDB7ED_8BBEC9E8_8BBFB7C3_8BC0BEF7_8BC1D6A4_8BC2DAAC,
  0x8BC3DAAD_8BC4C6C0_8BC5D7E7_8BC6CAB6_8BC8D5A9_8BC9CBDF_8BCAD5EF_8BCBDAAE,
  0x8BCCD6DF_8BCDB4CA_8BCEDAB0_8BCFDAAF_8BD1D2EB_8BD2DAB1_8BD3DAB2_8BD4DAB3,
  0x8BD5CAD4_8BD6DAB4_8BD7CAAB_8BD8DAB5_8BD9DAB6_8BDAB3CF_8BDBD6EF_8BDCDAB7,
  0x8BDDBBB0_8BDEB5AE_8BDFDAB8_8BE0DAB9_8BE1B9EE_8BE2D1AF_8BE3D2E8_8BE4DABA,
  0x8BE5B8C3_8BE6CFEA_8BE7B2EF_8BE8DABB_8BE9DABC_8BEBBDEB_8BECCEDC_8BEDD3EF,
  0x8BEEDABD_8BEFCEF3_8BF0DABE_8BF1D3D5_8BF2BBE5_8BF3DABF_8BF4CBB5_8BF5CBD0,
  0x8BF6DAC0_8BF7C7EB_8BF8D6EE_8BF9DAC1_8BFAC5B5_8BFBB6C1_8BFCDAC2_8BFDB7CC,
  0x8BFEBFCE_8BFFDAC3_8C00DAC4_8C01CBAD_8C02DAC5_8C03B5F7_8C04DAC6_8C05C1C2,
  0x8C06D7BB_8C07DAC7_8C08CCB8_8C0AD2EA_8C0BC4B1_8C0CDAC8_8C0DB5FD_8C0EBBD1,
  0x8C0FDAC9_8C10D0B3_8C11DACA_8C12DACB_8C13CEBD_8C14DACC_8C15DACD_8C16DACE,
  0x8C17B2F7_8C18DAD1_8C19DACF_8C1AD1E8_8C1BDAD0_8C1CC3D5_8C1DDAD2_8C1FDAD3,
  0x8C20DAD4_8C21DAD5_8C22D0BB_8C23D2A5_8C24B0F9_8C25DAD6_8C26C7AB_8C27DAD7,
  0x8C28BDF7_8C29C3A1_8C2ADAD8_8C2BDAD9_8C2CC3FD_8C2DCCB7_8C2EDADA_8C2FDADB,
  0x8C30C0BE_8C31C6D7_8C32DADC_8C33DADD_8C34C7B4_8C35DADE_8C36DADF_8C37B9C8,
  0x8C41BBED_8C46B6B9_8C47F4F8_8C49F4F9_8C4CCDE3_8C55F5B9_8C5AEBE0_8C61CFF3,
  0x8C62BBBF_8C6ABAC0_8C6BD4A5_8C73E1D9_8C78F5F4_8C79B1AA_8C7AB2F2_8C82F5F5,
  0x8C85F5F7_8C89BAD1_8C8AF5F6_8C8CC3B2_8C94F5F9_8C98F5F8_8D1DB1B4_8D1ED5EA,
  0x8D1FB8BA_8D21B9B1_8D22B2C6_8D23D4F0_8D24CFCD_8D25B0DC_8D26D5CB_8D27BBF5,
  0x8D28D6CA_8D29B7B7_8D2ACCB0_8D2BC6B6_8D2CB1E1_8D2DB9BA_8D2ED6FC_8D2FB9E1,
  0x8D30B7A1_8D31BCFA_8D32EADA_8D33EADB_8D34CCF9_8D35B9F3_8D36EADC_8D37B4FB,
  0x8D38C3B3_8D39B7D1_8D3ABAD8_8D3BEADD_8D3CD4F4_8D3DEADE_8D3EBCD6_8D3FBBDF,
  0x8D40EADF_8D41C1DE_8D42C2B8_8D43D4DF_8D44D7CA_8D45EAE0_8D46EAE1_8D47EAE4,
  0x8D48EAE2_8D49EAE3_8D4AC9DE_8D4BB8B3_8D4CB6C4_8D4DEAE5_8D4ECAEA_8D4FC9CD,
  0x8D50B4CD_8D53E2D9_8D54C5E2_8D55EAE6_8D56C0B5_8D58D7B8_8D59EAE7_8D5AD7AC,
  0x8D5BC8FC_8D5CD8D3_8D5DD8CD_8D5ED4DE_8D60D4F9_8D61C9C4_8D62D3AE_8D63B8D3,
  0x8D64B3E0_8D66C9E2_8D67F4F6_8D6BBAD5_8D6DF4F7_8D70D7DF_8D73F4F1_8D74B8B0,
  0x8D75D5D4_8D76B8CF_8D77C6F0_8D81B3C3_8D84F4F2_8D85B3AC_8D8AD4BD_8D8BC7F7,
  0x8D91F4F4_8D94F4F3_8D9FCCCB_8DA3C8A4_8DB1F4F5_8DB3D7E3_8DB4C5BF_8DB5F5C0,
  0x8DB8F5BB_8DBAF5C3_8DBCF5C2_8DBED6BA_8DBFF5C1_8DC3D4BE_8DC4F5C4_8DC6F5CC,
  0x8DCBB0CF_8DCCB5F8_8DCEF5C9_8DCFF5CA_8DD1C5DC_8DD6F5C5_8DD7F5C6_8DDAF5C7,
  0x8DDBF5CB_8DDDBEE0_8DDEF5C8_8DDFB8FA_8DE3F5D0_8DE4F5D3_8DE8BFE7_8DEAB9F2,
  0x8DEBF5BC_8DECF5CD_8DEFC2B7_8DF3CCF8_8DF5BCF9_8DF7F5CE_8DF8F5CF_8DF9F5D1,
  0x8DFAB6E5_8DFBF5D2_8DFDF5D5_8E05F5BD_8E09F5D4_8E0AD3BB_8E0CB3EC_8E0FCCA4,
  0x8E14F5D6_8E1DF5D7_8E1EBEE1_8E1FF5D8_8E22CCDF_8E23F5DB_8E29B2C8_8E2AD7D9,
  0x8E2CF5D9_8E2EF5DA_8E2FF5DC_8E31F5E2_8E35F5E0_8E39F5DF_8E3AF5DD_8E3DF5E1,
  0x8E40F5DE_8E41F5E4_8E42F5E5_8E44CCE3_8E47E5BF_8E48B5B8_8E49F5E3_8E4AF5E8,
  0x8E4BCCA3_8E51F5E6_8E52F5E7_8E59F5BE_8E66B1C4_8E69F5BF_8E6CB5C5_8E6DB2E4,
  0x8E6FF5EC_8E70F5E9_8E72B6D7_8E74F5ED_8E76F5EA_8E7CF5EB_8E7FB4DA_8E81D4EA,
  0x8E85F5EE_8E87B3F9_8E8FF5EF_8E90F5F1_8E94F5F0_8E9CF5F2_8E9EF5F3_8EABC9ED,
  0x8EACB9AA_8EAFC7FB_8EB2B6E3_8EBACCC9_8ECEEAA6_8F66B3B5_8F67D4FE_8F68B9EC,
  0x8F69D0F9_8F6BE9ED_8F6CD7AA_8F6DE9EE_8F6EC2D6_8F6FC8ED_8F70BAE4_8F71E9EF,
  0x8F72E9F0_8F73E9F1_8F74D6E1_8F75E9F2_8F76E9F3_8F77E9F5_8F78E9F4_8F79E9F6,
  0x8F7AE9F7_8F7BC7E1_8F7CE9F8_8F7DD4D8_8F7EE9F9_8F7FBDCE_8F81E9FA_8F82E9FB,
  0x8F83BDCF_8F84E9FC_8F85B8A8_8F86C1BE_8F87E9FD_8F88B1B2_8F89BBD4_8F8AB9F5,
  0x8F8BE9FE_8F8DEAA1_8F8EEAA2_8F8FEAA3_8F90B7F8_8F91BCAD_8F93CAE4_8F94E0CE,
  0x8F95D4AF_8F96CFBD_8F97D5B7_8F98EAA4_8F99D5DE_8F9AEAA5_8F9BD0C1_8F9CB9BC,
  0x8F9EB4C7_8F9FB1D9_8FA3C0B1_8FA8B1E6_8FA9B1E7_8FABB1E8_8FB0B3BD_8FB1C8E8,
  0x8FB6E5C1_8FB9B1DF_8FBDC1C9_8FBEB4EF_8FC1C7A8_8FC2D3D8_8FC4C6F9_8FC5D1B8,
  0x8FC7B9FD_8FC8C2F5_8FCED3AD_8FD0D4CB_8FD1BDFC_8FD3E5C2_8FD4B7B5_8FD5E5C3,
  0x8FD8BBB9_8FD9D5E2_8FDBBDF8_8FDCD4B6_8FDDCEA5_8FDEC1AC_8FDFB3D9_8FE2CCF6,
  0x8FE4E5C6_8FE5E5C4_8FE6E5C8_8FE8E5CA_8FE9E5C7_8FEAB5CF_8FEBC6C8_8FEDB5FC,
  0x8FEEE5C5_8FF0CAF6_8FF3E5C9_8FF7C3D4_8FF8B1C5_8FF9BCA3_8FFDD7B7_9000CDCB,
  0x9001CBCD_9002CACA_9003CCD3_9004E5CC_9005E5CB_9006C4E6_9009D1A1_900AD1B7,
  0x900BE5CD_900DE5D0_900FCDB8_9010D6F0_9011E5CF_9012B5DD_9014CDBE_9016E5D1,
  0x9017B6BA_901ACDA8_901BB9E4_901DCAC5_901EB3D1_901FCBD9_9020D4EC_9021E5D2,
  0x9022B7EA_9026E5CE_902DE5D5_902EB4FE_902FE5D6_9035E5D3_9036E5D4_9038D2DD,
  0x903BC2DF_903CB1C6_903ED3E2_9041B6DD_9042CBEC_9044E5D7_9047D3F6_904DB1E9,
  0x904FB6F4_9050E5DA_9051E5D8_9052E5D9_9053B5C0_9057D2C5_9058E5DC_905BE5DE,
  0x9062E5DD_9063C7B2_9065D2A3_9068E5DB_906DD4E2_906ED5DA_9074E5E0_9075D7F1,
  0x907DE5E1_907FB1DC_9080D1FB_9082E5E2_9083E5E4_9088E5E3_908BE5E5_9091D2D8,
  0x9093B5CB_9095E7DF_9097DAF5_9099DAF8_909BDAF6_909DDAF7_90A1DAFA_90A2D0CF,
  0x90A3C4C7_90A6B0EE_90AAD0B0_90ACDAF9_90AED3CA_90AFBAAA_90B0DBA2_90B1C7F1,
  0x90B3DAFC_90B4DAFB_90B5C9DB_90B6DAFD_90B8DBA1_90B9D7DE_90BADAFE_90BBC1DA,
  0x90BEDBA5_90C1D3F4_90C4DBA7_90C5DBA4_90C7DBA8_90CABDBC_90CEC0C9_90CFDBA3,
  0x90D0DBA6_90D1D6A3_90D3DBA9_90D7DBAD_90DBDBAE_90DCDBAC_90DDBAC2_90E1BFA4,
  0x90E2DBAB_90E6DBAA_90E7D4C7_90E8B2BF_90EBDBAF_90EDB9F9_90EFDBB0_90F4B3BB,
  0x90F8B5A6_90FDB6BC_90FEDBB1_9102B6F5_9104DBB2_9119B1C9_911EDBB4_9122DBB3,
  0x9123DBB5_912FDBB7_9131DBB6_9139DBB8_9143DBB9_9146DBBA_9149D3CF_914AF4FA,
  0x914BC7F5_914CD7C3_914DC5E4_914EF4FC_914FF4FD_9150F4FB_9152BEC6_9157D0EF,
  0x915AB7D3_915DD4CD_915ECCAA_9161F5A2_9162F5A1_9163BAA8_9164F4FE_9165CBD6,
  0x9169F5A4_916AC0D2_916CB3EA_916ECDAA_916FF5A5_9170F5A3_9171BDB4_9172F5A8,
  0x9174F5A9_9175BDCD_9176C3B8_9177BFE1_9178CBE1_9179F5AA_917DF5A6_917EF5A7,
  0x917FC4F0_9185F5AC_9187B4BC_9189D7ED_918BB4D7_918CF5AB_918DF5AE_9190F5AD,
  0x9191F5AF_9192D0D1_919AC3D1_919BC8A9_91A2F5B0_91A3F5B1_91AAF5B2_91ADF5B3,
  0x91AEF5B4_91AFF5B5_91B4F5B7_91B5F5B6_91BAF5B8_91C7B2C9_91C9D3D4_91CACACD,
  0x91CCC0EF_91CDD6D8_91CED2B0_91CFC1BF_91D1BDF0_91DCB8AA_9274BCF8_928EF6C6,
  0x92AEF6C7_92C8F6C8_933EF6C9_936AF6CA_938FF6CC_93CAF6CB_93D6F7E9_943EF6CD,
  0x946BF6CE_9485EEC4_9486EEC5_9487EEC6_9488D5EB_9489B6A4_948AEEC8_948BEEC7,
  0x948CEEC9_948DEECA_948EC7A5_948FEECB_9490EECC_9492B7B0_9493B5F6_9494EECD,
  0x9495EECF_9497EECE_9499B8C6_949AEED0_949BEED1_949CEED2_949DB6DB_949EB3AE,
  0x949FD6D3_94A0C4C6_94A1B1B5_94A2B8D6_94A3EED3_94A4EED4_94A5D4BF_94A6C7D5,
  0x94A7BEFB_94A8CED9_94A9B9B3_94AAEED6_94ABEED5_94ACEED8_94ADEED7_94AEC5A5,
  0x94AFEED9_94B0EEDA_94B1C7AE_94B2EEDB_94B3C7AF_94B4EEDC_94B5B2A7_94B6EEDD,
  0x94B7EEDE_94B8EEDF_94B9EEE0_94BAEEE1_94BBD7EA_94BCEEE2_94BDEEE3_94BEBCD8,
  0x94BFEEE4_94C0D3CB_94C1CCFA_94C2B2AC_94C3C1E5_94C4EEE5_94C5C7A6_94C6C3AD,
  0x94C8EEE6_94C9EEE7_94CAEEE8_94CBEEE9_94CCEEEA_94CDEEEB_94CEEEEC_94D0EEED,
  0x94D1EEEE_94D2EEEF_94D5EEF0_94D6EEF1_94D7EEF2_94D8EEF4_94D9EEF3_94DBEEF5,
  0x94DCCDAD_94DDC2C1_94DEEEF6_94DFEEF7_94E0EEF8_94E1D5A1_94E2EEF9_94E3CFB3,
  0x94E4EEFA_94E5EEFB_94E7EEFC_94E8EEFD_94E9EFA1_94EAEEFE_94EBEFA2_94ECB8F5,
  0x94EDC3FA_94EEEFA3_94EFEFA4_94F0BDC2_94F1D2BF_94F2B2F9_94F3EFA5_94F4EFA6,
  0x94F5EFA7_94F6D2F8_94F7EFA8_94F8D6FD_94F9EFA9_94FAC6CC_94FCEFAA_94FDEFAB,
  0x94FEC1B4_94FFEFAC_9500CFFA_9501CBF8_9502EFAE_9503EFAD_9504B3FA_9505B9F8,
  0x9506EFAF_9507EFB0_9508D0E2_9509EFB1_950AEFB2_950BB7E6_950CD0BF_950DEFB3,
  0x950EEFB4_950FEFB5_9510C8F1_9511CCE0_9512EFB6_9513EFB7_9514EFB8_9515EFB9,
  0x9516EFBA_9517D5E0_9518EFBB_9519B4ED_951AC3AA_951BEFBC_951DEFBD_951EEFBE,
  0x951FEFBF_9521CEFD_9522EFC0_9523C2E0_9524B4B8_9525D7B6_9526BDF5_9528CFC7,
  0x9529EFC3_952AEFC1_952BEFC2_952CEFC4_952DB6A7_952EBCFC_952FBEE2_9530C3CC,
  0x9531EFC5_9532EFC6_9534EFC7_9535EFCF_9536EFC8_9537EFC9_9538EFCA_9539C7C2,
  0x953AEFF1_953BB6CD_953CEFCB_953EEFCC_953FEFCD_9540B6C6_9541C3BE_9542EFCE,
  0x9544EFD0_9545EFD1_9546EFD2_9547D5F2_9549EFD3_954AC4F7_954CEFD4_954DC4F8,
  0x954EEFD5_954FEFD6_9550B8E4_9551B0F7_9552EFD7_9553EFD8_9554EFD9_9556EFDA,
  0x9557EFDB_9558EFDC_9559EFDD_955BEFDE_955CBEB5_955DEFE1_955EEFDF_955FEFE0,
  0x9561EFE2_9562EFE3_9563C1CD_9564EFE4_9565EFE5_9566EFE6_9567EFE7_9568EFE8,
  0x9569EFE9_956AEFEA_956BEFEB_956CEFEC_956DC0D8_956FEFED_9570C1AD_9571EFEE,
  0x9572EFEF_9573EFF0_9576CFE2_957FB3A4_95E8C3C5_95E9E3C5_95EAC9C1_95EBE3C6,
  0x95EDB1D5_95EECECA_95EFB4B3_95F0C8F2_95F1E3C7_95F2CFD0_95F3E3C8_95F4BCE4,
  0x95F5E3C9_95F6E3CA_95F7C3C6_95F8D5A2_95F9C4D6_95FAB9EB_95FBCEC5_95FCE3CB,
  0x95FDC3F6_95FEE3CC_9600B7A7_9601B8F3_9602BAD2_9603E3CD_9604E3CE_9605D4C4,
  0x9606E3CF_9608E3D0_9609D1CB_960AE3D1_960BE3D2_960CE3D3_960DE3D4_960ED1D6,
  0x960FE3D5_9610B2FB_9611C0BB_9612E3D6_9614C0AB_9615E3D7_9616E3D8_9617E3D9,
  0x9619E3DA_961AE3DB_961CB8B7_961DDAE2_961FB6D3_9621DAE4_9622DAE3_962ADAE6,
  0x962EC8EE_9631DAE5_9632B7C0_9633D1F4_9634D2F5_9635D5F3_9636BDD7_963BD7E8,
  0x963CDAE8_963DDAE7_963FB0A2_9640CDD3_9642DAE9_9644B8BD_9645BCCA_9646C2BD,
  0x9647C2A4_9648B3C2_9649DAEA_964BC2AA_964CC4B0_964DBDB5_9650CFDE_9654DAEB,
  0x9655C9C2_965BB1DD_965FDAEC_9661B6B8_9662D4BA_9664B3FD_9667DAED_9668D4C9,
  0x9669CFD5_966AC5E3_966CDAEE_9672DAEF_9674DAF0_9675C1EA_9676CCD5_9677CFDD,
  0x9685D3E7_9686C2A1_9688DAF1_968BCBE5_968DDAF2_968FCBE6_9690D2FE_9694B8F4,
  0x9697DAF3_9698B0AF_9699CFB6_969CD5CF_96A7CBED_96B0DAF4_96B3E3C4_96B6C1A5,
  0x96B9F6BF_96BCF6C0_96BDF6C1_96BEC4D1_96C0C8B8_96C1D1E3_96C4D0DB_96C5D1C5,
  0x96C6BCAF_96C7B9CD_96C9EFF4_96CCB4C6_96CDD3BA_96CEF6C2_96CFB3FB_96D2F6C3,
  0x96D5B5F1_96E0F6C5_96E8D3EA_96E9F6A7_96EAD1A9_96EFF6A9_96F3F6A8_96F6C1E3,
  0x96F7C0D7_96F9B1A2_96FECEED_9700D0E8_9701F6AB_9704CFF6_9706F6AA_9707D5F0,
  0x9708F6AC_9709C3B9_970DBBF4_970EF6AE_970FF6AD_9713C4DE_9716C1D8_971CCBAA,
  0x971ECFBC_972AF6AF_972DF6B0_9730F6B1_9732C2B6_9738B0D4_9739C5F9_973EF6B2,
  0x9752C7E0_9753F6A6_9756BEB8_9759BEB2_975BB5E5_975EB7C7_9760BFBF_9761C3D2,
  0x9762C3E6_9765D8CC_9769B8EF_9773BDF9_9774D1A5_9776B0D0_977CF7B0_9785F7B1,
  0x978BD0AC_978DB0B0_9791F7B2_9792F7B3_9794F7B4_9798C7CA_97A0BECF_97A3F7B7,
  0x97ABF7B6_97ADB1DE_97AFF7B5_97B2F7B8_97B4F7B9_97E6CEA4_97E7C8CD_97E9BAAB,
  0x97EAE8B8_97EBE8B9_97ECE8BA_97EDBEC2_97F3D2F4_97F5D4CF_97F6C9D8_9875D2B3,
  0x9876B6A5_9877C7EA_9878F1FC_9879CFEE_987ACBB3_987BD0EB_987CE7EF_987DCDE7,
  0x987EB9CB_987FB6D9_9880F1FD_9881B0E4_9882CBCC_9883F1FE_9884D4A4_9885C2AD,
  0x9886C1EC_9887C6C4_9888BEB1_9889F2A1_988ABCD5_988CF2A2_988DF2A3_988FF2A4,
  0x9890D2C3_9891C6B5_9893CDC7_9894F2A5_9896D3B1_9897BFC5_9898CCE2_989AF2A6,
  0x989BF2A7_989CD1D5_989DB6EE_989EF2A8_989FF2A9_98A0B5DF_98A1F2AA_98A2F2AB,
  0x98A4B2FC_98A5F2AC_98A6F2AD_98A7C8A7_98CEB7E7_98D1ECA9_98D2ECAA_98D3ECAB,
  0x98D5ECAC_98D8C6AE_98D9ECAD_98DAECAE_98DEB7C9_98DFCAB3_98E7E2B8_98E8F7CF,
  0x990DF7D0_9910B2CD_992EF7D1_9954F7D3_9955F7D2_9963E2BB_9965BCA2_9967E2BC,
  0x9968E2BD_9969E2BE_996AE2BF_996BE2C0_996CE2C1_996DB7B9_996ED2FB_996FBDA4,
  0x9970CACE_9971B1A5_9972CBC7_9974E2C2_9975B6FC_9976C8C4_9977E2C3_997ABDC8,
  0x997CB1FD_997DE2C4_997FB6F6_9980E2C5_9981C4D9_9984E2C6_9985CFDA_9986B9DD,
  0x9987E2C7_9988C0A1_998AE2C8_998BB2F6_998DE2C9_998FC1F3_9990E2CA_9991E2CB,
  0x9992C2F8_9993E2CC_9994E2CD_9995E2CE_9996CAD7_9997D8B8_9998D9E5_9999CFE3,
  0x99A5F0A5_99A8DCB0_9A6CC2ED_9A6DD4A6_9A6ECDD4_9A6FD1B1_9A70B3DB_9A71C7FD,
  0x9A73B2B5_9A74C2BF_9A75E6E0_9A76CABB_9A77E6E1_9A78E6E2_9A79BED4_9A7AE6E3,
  0x9A7BD7A4_9A7CCDD5_9A7DE6E5_9A7EBCDD_9A7FE6E4_9A80E6E6_9A81E6E7_9A82C2EE,
  0x9A84BDBE_9A85E6E8_9A86C2E6_9A87BAA7_9A88E6E9_9A8AE6EA_9A8BB3D2_9A8CD1E9,
  0x9A8FBFA5_9A90E6EB_9A91C6EF_9A92E6EC_9A93E6ED_9A96E6EE_9A97C6AD_9A98E6EF,
  0x9A9AC9A7_9A9BE6F0_9A9CE6F1_9A9DE6F2_9A9EE5B9_9A9FE6F3_9AA0E6F4_9AA1C2E2,
  0x9AA2E6F5_9AA3E6F6_9AA4D6E8_9AA5E6F7_9AA7E6F8_9AA8B9C7_9AB0F7BB_9AB1F7BA,
  0x9AB6F7BE_9AB7F7BC_9AB8BAA1_9ABAF7BF_9ABCF7C0_9AC0F7C2_9AC1F7C1_9AC2F7C4,
  0x9AC5F7C3_9ACBF7C5_9ACCF7C6_9AD1F7C7_9AD3CBE8_9AD8B8DF_9ADFF7D4_9AE1F7D5,
  0x9AE6F7D6_9AEBF7D8_9AEDF7DA_9AEFF7D7_9AF9F7DB_9AFBF7D9_9B03D7D7_9B08F7DC,
  0x9B0FF7DD_9B13F7DE_9B1FF7DF_9B23F7E0_9B2FDBCB_9B32D8AA_9B3BE5F7_9B3CB9ED,
  0x9B41BFFD_9B42BBEA_9B43F7C9_9B44C6C7_9B45F7C8_9B47F7CA_9B48F7CC_9B49F7CB,
  0x9B4DF7CD_9B4FCEBA_9B51F7CE_9B54C4A7_9C7CD3E3_9C7FF6CF_9C81C2B3_9C82F6D0,
  0x9C85F6D1_9C86F6D2_9C87F6D3_9C88F6D4_9C8BF6D6_9C8DB1AB_9C8EF6D7_9C90F6D8,
  0x9C91F6D9_9C92F6DA_9C94F6DB_9C95F6DC_9C9AF6DD_9C9BF6DE_9C9CCFCA_9C9EF6DF,
  0x9C9FF6E0_9CA0F6E1_9CA1F6E2_9CA2F6E3_9CA3F6E4_9CA4C0F0_9CA5F6E5_9CA6F6E6,
  0x9CA7F6E7_9CA8F6E8_9CA9F6E9_9CABF6EA_9CADF6EB_9CAEF6EC_9CB0F6ED_9CB1F6EE,
  0x9CB2F6EF_9CB3F6F0_9CB4F6F1_9CB5F6F2_9CB6F6F3_9CB7F6F4_9CB8BEA8_9CBAF6F5,
  0x9CBBF6F6_9CBCF6F7_9CBDF6F8_9CC3C8FA_9CC4F6F9_9CC5F6FA_9CC6F6FB_9CC7F6FC,
  0x9CCAF6FD_9CCBF6FE_9CCCF7A1_9CCDF7A2_9CCEF7A3_9CCFF7A4_9CD0F7A5_9CD3F7A6,
  0x9CD4F7A7_9CD5F7A8_9CD6B1EE_9CD7F7A9_9CD8F7AA_9CD9F7AB_9CDCF7AC_9CDDF7AD,
  0x9CDEC1DB_9CDFF7AE_9CE2F7AF_9E1FC4F1_9E20F0AF_9E21BCA6_9E22F0B0_9E23C3F9,
  0x9E25C5B8_9E26D1BB_9E28F0B1_9E29F0B2_9E2AF0B3_9E2BF0B4_9E2CF0B5_9E2DD1BC,
  0x9E2FD1EC_9E31F0B7_9E32F0B6_9E33D4A7_9E35CDD2_9E36F0B8_9E37F0BA_9E38F0B9,
  0x9E39F0BB_9E3AF0BC_9E3DB8EB_9E3EF0BD_9E3FBAE8_9E41F0BE_9E42F0BF_9E43BEE9,
  0x9E44F0C0_9E45B6EC_9E46F0C1_9E47F0C2_9E48F0C3_9E49F0C4_9E4AC8B5_9E4BF0C5,
  0x9E4CF0C6_9E4EF0C7_9E4FC5F4_9E51F0C8_9E55F0C9_9E57F0CA_9E58F7BD_9E5AF0CB,
  0x9E5BF0CC_9E5CF0CD_9E5EF0CE_9E63F0CF_9E64BAD7_9E66F0D0_9E67F0D1_9E68F0D2,
  0x9E69F0D3_9E6AF0D4_9E6BF0D5_9E6CF0D6_9E6DF0D8_9E70D3A5_9E71F0D7_9E73F0D9,
  0x9E7EF5BA_9E7FC2B9_9E82F7E4_9E87F7E5_9E88F7E6_9E8BF7E7_9E92F7E8_9E93C2B4,
  0x9E9DF7EA_9E9FF7EB_9EA6C2F3_9EB4F4F0_9EB8F4EF_9EBBC2E9_9EBDF7E1_9EBEF7E2,
  0x9EC4BBC6_9EC9D9E4_9ECDCAF2_9ECEC0E8_9ECFF0A4_9ED1BADA_9ED4C7AD_9ED8C4AC,
  0x9EDBF7EC_9EDCF7ED_9EDDF7EE_9EDFF7F0_9EE0F7EF_9EE2F7F1_9EE5F7F4_9EE7F7F3,
  0x9EE9F7F2_9EEAF7F5_9EEFF7F6_9EF9EDE9_9EFBEDEA_9EFCEDEB_9EFEF6BC_9F0BF6BD,
  0x9F0DF6BE_9F0EB6A6_9F10D8BE_9F13B9C4_9F17D8BB_9F19DCB1_9F20CAF3_9F22F7F7,
  0x9F2CF7F8_9F2FF7F9_9F37F7FB_9F39F7FA_9F3BB1C7_9F3DF7FC_9F3EF7FD_9F44F7FE,
  0x9F50C6EB_9F51ECB4_9F7FB3DD_9F80F6B3_9F83F6B4_9F84C1E4_9F85F6B5_9F86F6B6,
  0x9F87F6B7_9F88F6B8_9F89F6B9_9F8AF6BA_9F8BC8A3_9F8CF6BB_9F99C1FA_9F9AB9A8,
  0x9F9BEDE8_9F9FB9EA_9FA0D9DF_E810D7FA_E811D7FB_E812D7FC_E813D7FD_E814D7FE]

def codeTableSize : Nat := 6768

@[irreducible] def codeTable : List UnicodeGb := rows.flatMap rowEntries

theorem codeTable_length : codeTable.length = codeTableSize := by decide +kernel

theorem codeTable_entries {e : UnicodeGb} (member : e ∈ codeTable) :
    0x800 ≤ e.unicode ∧ e.gb ≠ 0 := by
  have walk : codeTable.all (fun e => 0x800 ≤ e.unicode ∧ e.gb ≠ 0) = true := by decide +kernel
  simpa using List.all_eq_true.mp walk e member

def Before (a b : UnicodeGb) : Prop := a.unicode < b.unicode

instance : Trans Before Before Before := ⟨fun low high => UInt16.lt_trans low high⟩

def ascending : List UnicodeGb → Bool
  | a :: b :: rest => if a.unicode < b.unicode then ascending (b :: rest) else false
  | _ => true

theorem isChain_of_ascending {table : List UnicodeGb} (walk : ascending table = true) :
    table.IsChain Before := by
  fun_induction ascending table with
  | case1 a b rest less ih => exact .cons_cons less (ih walk)
  | case2 => cases walk
  | case3 table short =>
    match table with
    | [] => exact .nil
    | [a] => exact .singleton a
    | a :: b :: rest => exact absurd rfl (short a b rest)

theorem codeTable_ascending : codeTable.Pairwise Before := by
  apply List.isChain_iff_pairwise.mp
  apply isChain_of_ascending
  decide +kernel

end BoxFirmware.CodeTable
